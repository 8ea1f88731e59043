import ApiSuite.Command.Basic

/-!
The command line. Options may stand before and after operands; those that every command has may also
stand before the name of the command. An option with a value takes it from the same argument or from the
next one, which must not look like an option. No option stands twice.
-/

namespace ApiSuite.Command

/-- Options without a value. The log that `verbose` asks for is not part of the output. -/
inductive Flag where
  | help
  | verbose
  | noColour
  | outline
  | noRecursive
  deriving DecidableEq, Repr

inductive Parameter where
  | pattern
  | root
  | config
  deriving DecidableEq, Repr

/-- The options that have a meaning. -/
structure Vocabulary where
  flags : List Flag
  parameters : List Parameter
  deriving DecidableEq, Repr

inductive Word where
  | flag (flag : Flag)
  | parameter (parameter : Parameter) (value : String)
  | operand (text : String)
  deriving DecidableEq, Repr

inductive Misuse where
  | noCommand
  | unknownCommand (name : String)
  | unknownOption (text : String)
  | valueMissing (name : String)
  | valueNotTaken (name : String)
  | emptyValue (name : String)
  | repeated (name : String)
  | operandMissing
  | operandNotTaken (text : String)
  deriving DecidableEq, Repr

/-- What is given instead of a run: help that was asked for, or a complaint. -/
inductive Advice where
  | help
  | complaint (misuse : Misuse)
  deriving DecidableEq, Repr

def Flag.name : Flag → String
  | .help => "help"
  | .verbose => "verbose"
  | .noColour => "no-color"
  | .outline => "outline"
  | .noRecursive => "no-recursive"

def Flag.letter? : Flag → Option Char
  | .help => some 'h'
  | .verbose => some 'v'
  | _ => none

def Parameter.name : Parameter → String
  | .pattern => "pattern"
  | .root => "root"
  | .config => "config"

def Parameter.letter : Parameter → Char
  | .pattern => 'p'
  | .root => 'r'
  | .config => 'c'

def Parameter.isPath : Parameter → Bool
  | .pattern => false
  | .root | .config => true

def Misuse.message : Misuse → String
  | .noCommand => "a command is required"
  | .unknownCommand name => "unknown command '" ++ name ++ "'"
  | .unknownOption text => "unknown option '" ++ text ++ "'"
  | .valueMissing name => "a value is required for '" ++ name ++ "'"
  | .valueNotTaken name => "no value is taken for '" ++ name ++ "'"
  | .emptyValue name => "a value is required for '" ++ name ++ "' but it is empty"
  | .repeated name => "'" ++ name ++ "' cannot be used twice"
  | .operandMissing => "a path is required"
  | .operandNotTaken text => "unexpected argument '" ++ text ++ "'"

namespace Vocabulary

def common : Vocabulary :=
  ⟨[.help, .verbose, .noColour], []⟩

def dump : Vocabulary :=
  common

def plugins : Vocabulary :=
  common

def list : Vocabulary :=
  ⟨common.flags ++ [.noRecursive], [.pattern, .root, .config]⟩

def check : Vocabulary :=
  { list with flags := list.flags ++ [.outline] }

end Vocabulary

def isOption (argument : String) : Bool :=
  match argument.toList with
  | '-' :: _ :: _ => true
  | _ => false

/-- What an argument after two dashes says, and the parameter whose value is still to come. -/
def longOption (vocabulary : Vocabulary) (chars : List Char) :
    Except Misuse (List Word × Option Parameter) :=
  let name := String.ofList (chars.takeWhile (· != '='))
  let value? := (chars.dropWhile (· != '=')).tail?.map String.ofList
  match vocabulary.flags.find? (·.name == name), vocabulary.parameters.find? (·.name == name) with
  | some flag, _ =>
    if value?.isSome then .error (.valueNotTaken flag.name) else .ok ([.flag flag], none)
  | none, some parameter =>
    match value? with
    | some value => .ok ([.parameter parameter value], none)
    | none => .ok ([], some parameter)
  | none, none => .error (.unknownOption name)

/-- What an argument after one dash says: letters of flags, then that of a parameter with its value. -/
def shortOptions (vocabulary : Vocabulary) : List Char → Except Misuse (List Word × Option Parameter)
  | [] => .ok ([], none)
  | c :: rest =>
    match vocabulary.flags.find? (·.letter? == some c), vocabulary.parameters.find? (·.letter == c) with
    | some .help, _ => .ok ([.flag .help], none)
    | some flag, _ => do
      let (words, pending) ← shortOptions vocabulary rest
      return (.flag flag :: words, pending)
    | none, some parameter =>
      match rest with
      | [] => .ok ([], some parameter)
      | '=' :: value | value => .ok ([.parameter parameter (String.ofList value)], none)
    | none, none => .error (.unknownOption (String.ofList [c]))

def readArgument (vocabulary : Vocabulary) (argument : String) :
    Except Misuse (List Word × Option Parameter) :=
  match argument.toList with
  | '-' :: '-' :: chars => longOption vocabulary chars
  | '-' :: c :: chars => shortOptions vocabulary (c :: chars)
  | _ => .ok ([.operand argument], none)

def readArguments (vocabulary : Vocabulary) : List String → Except Misuse (List Word)
  | [] => .ok []
  | "--" :: rest => .ok (rest.map .operand)
  | argument :: rest => do
    let (words, pending) ← readArgument vocabulary argument
    if words.contains (.flag .help) then return words
    match pending, rest with
    | none, rest => return words ++ (← readArguments vocabulary rest)
    | some parameter, [] => .error (.valueMissing parameter.name)
    | some parameter, value :: rest =>
      if isOption value then .error (.valueMissing parameter.name)
      else return words ++ .parameter parameter value :: (← readArguments vocabulary rest)

namespace Word

def option? : Word → Option String
  | .flag f => some f.name
  | .parameter p _ => some p.name
  | .operand _ => none

def misuse? : Word → Option Misuse
  | .parameter p "" => if p.isPath then some (.emptyValue p.name) else none
  | .operand "" => some (.emptyValue "path")
  | _ => none

def operand? : Word → Option String
  | .operand text => some text
  | _ => none

def value? (wanted : Parameter) : Word → Option String
  | .parameter p value => if p = wanted then some value else none
  | _ => none

end Word

def checkWords : List Word → Except Misuse Unit
  | [] => .ok ()
  | word :: rest => do
    if let some misuse := word.misuse? then throw misuse
    if let some name := word.option? then
      if (rest.filterMap (·.option?)).contains name then throw (.repeated name)
    checkWords rest

def operands (words : List Word) : List String :=
  words.filterMap (·.operand?)

def value? (words : List Word) (parameter : Parameter) : Option String :=
  words.findSome? (·.value? parameter)

def scope (words : List Word) : Scope where
  pattern := value? words .pattern
  root := value? words .root
  noRecursive := words.contains (.flag .noRecursive)
  config := value? words .config

/-- The words of arguments that are in order, with no more than `room` operands. -/
def wordsOf (vocabulary : Vocabulary) (room : Nat) (arguments : List String) :
    Except Advice (List Word) := do
  let words ← (readArguments vocabulary arguments).mapError .complaint
  (checkWords words).mapError .complaint
  if let text :: _ := (operands words).drop room then throw (.complaint (.operandNotTaken text))
  if words.contains (.flag .help) then throw .help
  return words

def wordsAndPath (vocabulary : Vocabulary) (arguments : List String) :
    Except Advice (List Word × String) := do
  let words ← wordsOf vocabulary 1 arguments
  match operands words with
  | path :: _ => return (words, path)
  | [] => throw (.complaint .operandMissing)

def ofArguments (name : String) (arguments : List String) : Except Advice (Command × List Word) :=
  match name with
  | "check" => do
    let (words, path) ← wordsAndPath .check arguments
    return (.check path (words.contains (.flag .outline)) (scope words), words)
  | "dump" => do
    let (words, path) ← wordsAndPath .dump arguments
    return (.dump path, words)
  | "list" => do
    let (words, path) ← wordsAndPath .list arguments
    return (.list path (scope words), words)
  | "plugins" => do return (.plugins, ← wordsOf .plugins 0 arguments)
  | "help" =>
    match arguments.find? (!names.contains ·), arguments with
    | none, [] | none, [_] => .error .help
    | none, _ :: other :: _ => .error (.complaint (.unknownCommand other))
    | some other, _ => .error (.complaint (.unknownCommand other))
  | name => .error (.complaint (.unknownCommand name))
where
    names : List String := ["check", "dump", "list", "plugins", "help"]

end Command

def Invocation.ofArguments (arguments : List String) : Except Command.Advice Invocation := do
  let before := arguments.takeWhile Command.isOption
  let words ← Command.wordsOf .common 0 before
  match before.contains "--", arguments.drop before.length with
  | _, [] => throw (.complaint .noCommand)
  | true, name :: _ => throw (.complaint (.unknownCommand name))
  | false, name :: rest =>
    let (command, later) ← Command.ofArguments name rest
    return ⟨(words ++ later).contains (.flag .noColour), command⟩

end ApiSuite
