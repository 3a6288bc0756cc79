import Caret.ContractError
import Caret.Label

/-!
# Command line arguments

A command line holds options that hold for all commands, a command, and its own
options and input. The common options may also stand behind the command, where they
win. An option is written with two hyphens and its name, or with one hyphen and its
letter; letters without values may be joined. A value is joined with an equals sign,
directly behind a letter, or is the next argument, which then does not start with a hyphen
unless it is one. No option occurs twice at one level. Behind two hyphens there
are no options.
-/

namespace Caret.CommandLine

/-! ## Invocations -/

/-- The forms in which a located error is printed. -/
inductive OutputFormat where
  | human
  | json
  deriving DecidableEq, Repr

/-- The format of a name. -/
def OutputFormat.ofName? : String → Option OutputFormat
  | "human" => some .human
  | "json" => some .json
  | _ => none

/-- What an error in a query is located and described with. -/
structure LocateOptions where
  /-- The characters before the error. -/
  offset : Option Nat := none
  /-- What went wrong. -/
  description : String := "Syntax error"
  /-- The construct around the error. -/
  label : Option Label := none
  /-- The form of the answer. -/
  format : OutputFormat := .human
  deriving DecidableEq

/-- **What is done** with the query of an input. -/
inductive Command where
  /-- An error in it is located. -/
  | locate (options : LocateOptions)
  /-- Its normalized form is printed. -/
  | normalize
  deriving DecidableEq

/-- **A command line** that is carried out. -/
structure Invocation where
  /-- The configuration file, if one is named. -/
  config : Option String := none
  /-- The locale, if one is chosen. -/
  locale : Option String := none
  /-- The command. -/
  command : Command
  /-- The path of the input; a hyphen stands for the standard input. -/
  input : String
  deriving DecidableEq

/-- Why no command is carried out. -/
inductive Refusal where
  /-- The arguments are wrong. -/
  | usage
  /-- The version is asked for. -/
  | version
  /-- Help is asked for. -/
  | help
  deriving DecidableEq, Repr

/-! ## Options -/

/-- The options of all commands. -/
inductive OptionName where
  | config
  | locale
  | verbose
  | version
  | help
  | offset
  | description
  | label
  | labelKey
  | format
  deriving DecidableEq, Repr

/-- The number of an offset: digits, with a plus sign before them or without. -/
def offset? (text : String) : Option Nat :=
  let digits := match text.toList with
    | '+' :: ds => ds
    | ds => ds
  if digits.isEmpty || !digits.all Char.isDigit then none
  else
    let n := Text.ofDecimal digits
    if n < wordLimit then some n else none

namespace OptionName

/-- The name behind two hyphens. -/
def long : OptionName → String
  | config => "config"
  | locale => "locale"
  | verbose => "verbose"
  | version => "version"
  | help => "help"
  | offset => "offset"
  | description => "description"
  | label => "label"
  | labelKey => "label-key"
  | format => "format"

/-- The letter behind one hyphen. -/
def short? : OptionName → Option Char
  | config => some 'c'
  | locale => some 'l'
  | verbose => some 'v'
  | version => some 'V'
  | help => some 'h'
  | offset => some 'o'
  | description => some 'd'
  | label => none
  | labelKey => none
  | format => some 'f'

/-- Whether the option has a value. -/
def takesValue : OptionName → Bool
  | verbose | version | help => false
  | _ => true

/-- Whether the option may have a value. -/
def accepts : OptionName → String → Bool
  | config, value => !value.isEmpty
  | offset, value => (offset? value).isSome
  | format, value => (OutputFormat.ofName? value).isSome
  | _, _ => true

end OptionName

/-- **A level** of a command line: before the command or behind it. -/
structure Level where
  /-- The options. -/
  options : List OptionName
  /-- The words that end the level. -/
  commands : List String
  /-- The number of inputs at most. -/
  inputLimit : Nat

/-- The options that hold for all commands, and the commands. -/
def Level.top : Level :=
  ⟨[.config, .locale, .verbose, .version, .help], ["locate", "normalize", "help"], 0⟩

/-- What may stand behind the command that locates an error. -/
def Level.locate : Level :=
  ⟨[.config, .locale, .verbose, .help, .offset, .description, .label, .labelKey, .format], [], 1⟩

/-- What may stand behind the command that normalizes. -/
def Level.normalize : Level := ⟨[.config, .locale, .verbose, .help], [], 1⟩

/-! ## Reading a level -/

/-- What has been given at a level. -/
structure Given where
  /-- The options with their values; an option without a value has the empty one. -/
  values : List (OptionName × String) := []
  /-- The inputs. -/
  inputs : List String := []

namespace Given

/-- The value of an option, if it is given. -/
def value? (g : Given) (name : OptionName) : Option String := g.values.lookup name

/-- Adds an option. -/
def set (g : Given) (name : OptionName) (value : String) : Except Refusal Given :=
  if (g.value? name).isSome || !name.accepts value then .error .usage
  else match name with
    | .version => .error .version
    | .help => .error .help
    | _ => .ok { g with values := (name, value) :: g.values }

/-- Adds inputs. -/
def addInputs (g : Given) (level : Level) (inputs : List String) : Except Refusal Given :=
  let inputs := g.inputs ++ inputs
  if inputs.length ≤ level.inputLimit then .ok { g with inputs } else .error .usage

end Given

/-- Reads joined letters. Gives the option whose value is still to come as well. -/
def readLetters (level : Level) (g : Given) :
    List Char → Except Refusal (Given × Option OptionName)
  | [] => .ok (g, none)
  | c :: cs =>
    match level.options.find? (·.short? = some c) with
    | none => .error .usage
    | some name =>
      if name.takesValue then
        match cs with
        | [] => .ok (g, some name)
        | '=' :: value => do return (← g.set name (String.ofList value), none)
        | value => do return (← g.set name (String.ofList value), none)
      else
        match g.set name "" with
        | .error e => .error e
        | .ok g => readLetters level g cs

/-- Reads a name and perhaps a value behind two hyphens. -/
def readName (level : Level) (g : Given) (text : List Char) :
    Except Refusal (Given × Option OptionName) :=
  match level.options.find? (·.long.toList = text.takeWhile (· ≠ '=')) with
  | none => .error .usage
  | some name =>
    match text.dropWhile (· ≠ '='), name.takesValue with
    | [], true => .ok (g, some name)
    | [], false => do return (← g.set name "", none)
    | _ :: value, true => do return (← g.set name (String.ofList value), none)
    | _ :: _, false => .error .usage

/-- Whether an argument starts with a hyphen and is more than one. -/
def startsOption (arg : String) : Bool :=
  match arg.toList with
  | '-' :: _ :: _ => true
  | _ => false

/-- **Reads a level** up to a command or the end. Gives what is left, from the
command on. -/
def readLevel (level : Level) (g : Given) (awaited : Option OptionName) :
    List String → Except Refusal (Given × List String)
  | [] => if awaited.isSome then .error .usage else .ok (g, [])
  | arg :: args =>
    match awaited with
    | some name =>
      if startsOption arg then .error .usage
      else match g.set name arg with
        | .error e => .error e
        | .ok g => readLevel level g none args
    | none =>
      match arg.toList with
      | ['-', '-'] => do return (← g.addInputs level args, [])
      | '-' :: '-' :: text =>
        match readName level g text with
        | .error e => .error e
        | .ok (g, awaited) => readLevel level g awaited args
      | '-' :: c :: cs =>
        match readLetters level g (c :: cs) with
        | .error e => .error e
        | .ok (g, awaited) => readLevel level g awaited args
      | _ =>
        if level.commands.contains arg then .ok (g, arg :: args)
        else match g.addInputs level [arg] with
          | .error e => .error e
          | .ok g => readLevel level g none args

/-! ## Reading a command line -/

/-- The options that belong to the command that locates an error. -/
def Given.locateOptions (g : Given) : Except Refusal LocateOptions :=
  match g.value? .label, g.value? .labelKey with
  | some _, some _ => .error .usage
  | text, key => .ok
    { offset := (g.value? .offset).bind offset?
      description := (g.value? .description).getD "Syntax error"
      label := text.map .literal <|> key.map .resource
      format := ((g.value? .format).bind OutputFormat.ofName?).getD .human }

/-- The command line with what was given before and behind a command. -/
def Given.invocation (g top : Given) (command : Command) : Except Refusal Invocation :=
  match g.inputs with
  | [input] =>
    if input.isEmpty then .error .usage
    else .ok
      { config := g.value? .config <|> top.value? .config
        locale := g.value? .locale <|> top.value? .locale
        command, input }
  | _ => .error .usage

/-- Whether words behind the command for help name what help is asked for: all of the
commands, or one of them, which holds no others. -/
def isHelpTopic : List String → Bool
  | [] => true
  | [name] => Level.top.commands.contains name
  | _ => false

/-- **Reads a command line.** -/
def Invocation.ofArgs (args : List String) : Except Refusal Invocation := do
  let (top, rest) ← readLevel .top {} none args
  match rest with
  | "locate" :: rest =>
    let (g, _) ← readLevel .locate {} none rest
    g.invocation top (.locate (← g.locateOptions))
  | "normalize" :: rest =>
    let (g, _) ← readLevel .normalize {} none rest
    g.invocation top .normalize
  | "help" :: topic => .error (if isHelpTopic topic then .help else .usage)
  | _ => .error .usage

end Caret.CommandLine
