import WatTypes.CommandLine.Command
import WatTypes.FileTree
import WatTypes.Text.Similarity

/-!
# Requests

The arguments of the program are read into a request, or into the error of their usage that comes
first (`Request.ofArguments`). Options are told from other arguments by their hyphens, up to a lone
`--`; options that ask for help or for the version go before everything but errors in options, and
an operand has to exist. Names of options and commands that are not known are answered with similar
ones that are.
-/

set_option autoImplicit false
set_option relaxedAutoImplicit false

namespace WatTypes.CommandLine

/-- What is wrong with the arguments. -/
inductive UsageError where
  /-- There are none. -/
  | noArguments
  /-- An option is unknown. -/
  | noSuchOption (topic : Topic) (name : String)
  /-- A flag has been given a value. -/
  | valueForFlag (name : String)
  /-- There is no command. -/
  | missingCommand
  /-- The command is unknown. -/
  | noSuchCommand (name : String)
  /-- The operand is missing. -/
  | missingOperand (command : Command) (operand : Operand)
  /-- There is nothing of the operand's name. -/
  | absent (command : Command) (operand : Operand) (name : String)
  /-- The operand is a directory and should be a file. -/
  | isDirectory (command : Command) (operand : Operand) (name : String)
  /-- There are too many arguments. -/
  | extraArguments (command : Command) (arguments : List String)
deriving DecidableEq, Repr

namespace UsageError

/-- What is said about names that may have been meant. -/
def hintAtNames (names : List String) : String :=
  match names.map Text.quoted with
  | [] => ""
  | [only] => " Did you mean " ++ only ++ "?"
  | several => " (Did you mean one of: " ++ String.intercalate ", " several ++ "?)"

/-- The names that may have been meant by a word, in their order. -/
def meant (word : String) (names : List String) : List String :=
  (Text.similar word names).mergeSort fun first second ↦ !FileTree.nameBefore second first

/-- The line that says what is wrong. -/
def message : UsageError → String
  | .noArguments => ""
  | .noSuchOption topic name =>
    "No such option " ++ Text.quoted name ++ "." ++
      hintAtNames (meant name (topic.flags.map Flag.name))
  | .valueForFlag name => "Option " ++ Text.quoted name ++ " does not take a value."
  | .missingCommand => "Missing command."
  | .noSuchCommand name =>
    "No such command " ++ Text.quoted name ++ "." ++
      hintAtNames (meant name (Command.all.map Command.name))
  | .missingOperand _ operand => "Missing argument '" ++ operand.shown ++ "'."
  | .absent _ operand name =>
    "Invalid value for '" ++ operand.shown ++ "': " ++ operand.kind ++ " " ++ Text.quoted name ++
      " does not exist."
  | .isDirectory _ operand name =>
    "Invalid value for '" ++ operand.shown ++ "': " ++ operand.kind ++ " " ++ Text.quoted name ++
      " is a directory."
  | .extraArguments _ arguments =>
    "Got unexpected extra argument" ++ (if arguments.length = 1 then "" else "s") ++ " (" ++
      String.intercalate " " arguments ++ ")"

/-- The topic whose usage is shown with an error. -/
def topic? : UsageError → Option Topic
  | .noArguments => none
  | .noSuchOption topic _ => some topic
  | .valueForFlag _ => none
  | .missingCommand => some none
  | .noSuchCommand _ => some none
  | .missingOperand command _ => some (some command)
  | .absent command _ _ => some (some command)
  | .isDirectory command _ _ => some (some command)
  | .extraArguments command _ => some (some command)

/-- The usage of a topic and where to find help on it. -/
def hint (topic : Topic) : String :=
  topic.usage ++ "\nTry '" ++ topic.invocation ++ " --help' for help.\n\n"

/-- An error as it is shown. Without arguments the help is shown instead. -/
def text (error : UsageError) : String :=
  if error = .noArguments then helpText none
  else (error.topic?.map hint).getD "" ++ "Error: " ++ error.message

end UsageError

/-- Why arguments make no request. -/
inductive RequestError where
  /-- They are not used as they should be. -/
  | usage (error : UsageError)
  /-- The operand cannot be looked up. -/
  | file (error : FileError)
deriving DecidableEq, Repr

/-! ### Options and operands -/

/-- Whether an argument is to be read as an option. -/
def isOption (argument : String) : Bool :=
  match argument.toList with
  | '-' :: _ :: _ => true
  | _ => false

/-- The option that an argument names. Behind an equals sign there would be a value, which no option
takes; a single hyphen stands before options of one letter, of which there are none. -/
def optionName (topic : Topic) (argument : String) : Except UsageError String :=
  let characters := argument.toList
  let name := String.ofList (characters.takeWhile (· ≠ '='))
  if topic.flags.any (·.name = name) then
    if '=' ∈ characters then .error (.valueForFlag name) else .ok name
  else if ['-', '-'].isPrefixOf characters then .error (.noSuchOption topic name)
  else .error (.noSuchOption topic (String.ofList (characters.take 2)))

/-- Arguments sorted into options and others. -/
structure Sorted where
  /-- The options, in order. -/
  options : List String
  /-- The other arguments, in order. -/
  others : List String
deriving DecidableEq, Repr

/-- Sorts arguments. Behind the first argument that is no option there are further options only if
options are taken everywhere. -/
def sorted (topic : Topic) (everywhere : Bool) : List String → Except UsageError Sorted
  | [] => .ok ⟨[], []⟩
  | argument :: rest =>
    if argument = "--" then .ok ⟨[], rest⟩
    else if isOption argument then do
      let name ← optionName topic argument
      let behind ← sorted topic everywhere rest
      return ⟨name :: behind.options, behind.others⟩
    else if everywhere then do
      let behind ← sorted topic everywhere rest
      return ⟨behind.options, argument :: behind.others⟩
    else .ok ⟨[], argument :: rest⟩

/-! ### Requests -/

/-- What the arguments ask for. -/
inductive Request where
  /-- The version of the program. -/
  | version
  /-- The help on a topic. -/
  | help (topic : Topic)
  /-- The errors of the sources at a path. -/
  | check (path : String)
  /-- The sources at a path in canonical form: they are brought into it, or only checked. -/
  | format (path : String) (onlyCheck : Bool)
  /-- The standard input in canonical form: it is written out, or only checked. The path says where
  settings are looked for. -/
  | formatInput (path : String) (onlyCheck : Bool)
  /-- A file in colours. -/
  | highlight (file : String)
  /-- The service of an editor. -/
  | serve
  /-- The outline of a file. -/
  | view (file : String)
deriving DecidableEq, Repr

namespace Request

/-- The operand of a command as it was given, if it is fit for it. -/
def operand (tree : FileTree) (command : Command) (operand : Operand) (given : Option String) :
    Except RequestError String :=
  match given <|> operand.standard? with
  | none => .error (.usage (.missingOperand command operand))
  | some name =>
    match tree.locate name with
    | .error error => .error (.file error)
    | .ok none => .error (.usage (.absent command operand name))
    | .ok (some location) =>
      if operand = .file && tree.isDirectory location then
        .error (.usage (.isDirectory command operand name))
      else .ok name

/-- The operand of a command and no argument more. -/
def onlyOperand (tree : FileTree) (command : Command) (kind : Operand) (others : List String) :
    Except RequestError String := do
  let name ← operand tree command kind others.head?
  match others.drop 1 with
  | [] => return name
  | extra => throw (.usage (.extraArguments command extra))

/-- The request that the arguments of a command make. -/
def ofCommand (tree : FileTree) (command : Command) (arguments : List String) :
    Except RequestError Request := do
  let ⟨options, others⟩ ← (sorted (some command) true arguments).mapError .usage
  if Flag.help.name ∈ options then return .help (some command)
  match command with
  | .check => return .check (← onlyOperand tree command .path others)
  | .format =>
    let path ← onlyOperand tree command .path others
    let onlyCheck := Flag.check.name ∈ options
    if Flag.stdin.name ∈ options then return .formatInput path onlyCheck
    else return .format path onlyCheck
  | .highlight => return .highlight (← onlyOperand tree command .file others)
  | .view => return .view (← onlyOperand tree command .file others)
  | .lsp => if others = [] then return .serve else throw (.usage (.extraArguments command others))

/-- The request of the first option of the program, if there is one, and the other arguments. -/
def ofOptions (arguments : List String) : Except RequestError (Option Request × List String) := do
  let ⟨options, others⟩ ← (sorted none false arguments).mapError .usage
  return (options.head?.map fun name ↦ if name = Flag.version.name then .version else .help none,
    others)

/-- The request that the arguments of the program make. Where a command should stand, what looks
like an option is taken for one even behind `--`. -/
def ofArguments (tree : FileTree) (arguments : List String) : Except RequestError Request := do
  if arguments = [] then throw (.usage .noArguments)
  match ← ofOptions arguments with
  | (some request, _) => return request
  | (none, []) => throw (.usage .missingCommand)
  | (none, name :: rest) =>
    match Command.ofName? name with
    | some command => ofCommand tree command rest
    | none =>
      match ← ofOptions (name :: rest) with
      | (some request, _) => return request
      | (none, _) => throw (.usage (.noSuchCommand name))

end Request

end WatTypes.CommandLine
