import BuildMatrix.Command.Choices

/-!
# Command lines

A command line is read in two steps. Its arguments are first told apart, from left to right, into
what each of them gives: settings with their values, notices asked for, and arguments that stand
for nothing. Then what was given is settled in the same order, and the first problem ends it. A
value that is an argument of its own is looked at only once the argument after it has been
accepted; an attached one at once. What the command line leaves open is taken from the environment.
-/

namespace BuildMatrix.Command

/-- What an argument gives. -/
inductive Given where
  /-- A switch, or a setting with its value attached. -/
  | attached (setting : Setting) (value : String)
  /-- A setting with its value in the argument after it, if that is one. -/
  | separate (setting : Setting) (value? : Option String)
  /-- A notice. -/
  | notice (notice : Notice)
  /-- Nothing: the argument is refused. -/
  | refused (error : UsageError)
deriving DecidableEq

/-- What one argument gives, and the setting whose value must follow it. -/
structure Opened where
  /-- What is given without the next argument. -/
  given : List Given
  /-- The setting that waits for its value. -/
  awaiting : Option Setting
deriving DecidableEq

namespace Opened

/-- An argument that waits for its value. -/
def waiting (setting : Setting) : Opened :=
  ⟨[], some setting⟩

/-- An argument that gives one thing. -/
def single (given : Given) : Opened :=
  ⟨[given], none⟩

/-- Something given in front of the rest of an argument. -/
def after (given : Given) (opened : Opened) : Opened :=
  ⟨given :: opened.given, opened.awaiting⟩

end Opened

/-- What the argument with two hyphens in front of `body` gives. -/
def openName (body : List Char) : Opened :=
  let argument := String.ofList ('-' :: '-' :: body)
  let attached? := (Text.after? ['='] (body.dropWhile (· ≠ '='))).map String.ofList
  match Named.ofName? (String.ofList (body.takeWhile (· ≠ '='))), attached? with
  | none, _ => .single (.refused (.unknownArgument argument))
  | some (.notice notice), none => .single (.notice notice)
  | some (.notice _), some _ => .single (.refused (.unneededValue argument))
  | some (.setting setting), none =>
    if setting.isSwitch then .single (.attached setting "true") else .waiting setting
  | some (.setting setting), some value =>
    if setting.isSwitch then .single (.refused (.unneededValue argument))
    else .single (.attached setting value)

/-- What the letters after one hyphen give. The first setting that takes a value takes the letters
after it, less an equals sign, or waits if there are none. -/
def openLetters : List Char → Opened
  | [] => ⟨[], none⟩
  | letter :: rest =>
    match Named.ofLetter? letter with
    | none => .single (.refused (.unknownArgument (String.ofList ['-', letter])))
    | some (.notice notice) => .after (.notice notice) (openLetters rest)
    | some (.setting setting) =>
      if setting.isSwitch then .after (.attached setting "true") (openLetters rest)
      else if rest.isEmpty then .waiting setting
      else .single (.attached setting (String.ofList ((Text.after? ['='] rest).getD rest)))

/-- An argument that is a name or letters, rather than a value; a lone hyphen is a value. -/
def isName (argument : List Char) : Bool :=
  argument.head? = some '-' && argument ≠ ['-']

/-- What an argument gives that is not the value of the one before it. -/
def openArgument (argument : List Char) : Opened :=
  match argument with
  | '-' :: '-' :: body => openName body
  | '-' :: letter :: letters => openLetters (letter :: letters)
  | _ => .single (.refused (.unknownArgument (String.ofList argument)))

/-- The argument after which there may be no other. -/
def endOfNames : List Char :=
  ['-', '-']

/-- What arguments give when `awaiting` waits for its value. -/
def givenBy (awaiting : Option Setting) : List (List Char) → List Given
  | [] => awaiting.toList.map fun setting => .separate setting none
  | argument :: rest =>
    let unanswered := awaiting.toList.map fun setting => Given.separate setting none
    if argument = endOfNames then
      unanswered ++ rest.map fun extra => .refused (.unknownArgument (String.ofList extra))
    else
      match awaiting, isName argument with
      | some setting, false =>
        .separate setting (some (String.ofList argument)) :: givenBy none rest
      | _, _ =>
        let opened := openArgument argument
        unanswered ++ opened.given ++ givenBy opened.awaiting rest

/-- What ends a command line without a run. -/
inductive Stop where
  /-- The program is asked about itself. -/
  | notice (notice : Notice)
  /-- The arguments cannot be accepted. -/
  | misuse (error : UsageError)
deriving DecidableEq

/-- The choices after everything given has been settled. -/
def settle (choices : Choices) : List Given → Except Stop Choices
  | [] => .ok choices
  | .refused error :: _ => .error (.misuse error)
  | .notice notice :: _ => .error (.notice notice)
  | .separate _ _ :: .refused error :: _ => .error (.misuse error)
  | .separate setting value? :: rest =>
    match choices.give setting value? with
    | .error error => .error (.misuse error)
    | .ok choices => settle choices rest
  | .attached setting value :: rest =>
    match choices.give setting (some value) with
    | .error error => .error (.misuse error)
    | .ok choices => settle choices rest

/-- The choices after one setting has been looked up in the environment, unless it was given. -/
def inherit (environment : String → Option String) (choices : Choices) (setting : Setting) :
    Except UsageError Choices :=
  match setting.environmentName?.bind environment with
  | none => .ok choices
  | some value => if choices.isGiven setting then .ok choices else choices.assign setting value

/-- A run may not be told to be verbose and quiet. -/
def consistent (choices : Choices) : Except UsageError Choices :=
  if choices.isGiven .verbose && choices.isGiven .quiet then .error .verboseAndQuiet
  else .ok choices

/-- The options that arguments and an environment ask for. -/
def parse (arguments : List String) (environment : String → Option String) :
    Except Stop Options := do
  let choices ← settle {} (givenBy none (arguments.map String.toList))
  let choices ← (Setting.all.foldlM (inherit environment) choices).mapError Stop.misuse
  let choices ← (consistent choices).mapError Stop.misuse
  return choices.options

end BuildMatrix.Command
