/-!
# Command-line arguments

An argument is an option or the input directory. Options have long names behind two
dashes, some also a letter behind one; letters may stand together, and the value of an
option may stand in the same argument or in the next. Two dashes alone end the options.
-/

namespace BasicToSharp

/-- An option that takes a value. -/
inductive ValueOption
  | output | settings | language | indent
  deriving DecidableEq, Repr

/-- An option without a value. -/
inductive Switch
  | echo | json | pause | verbose | quiet | help | version
  deriving DecidableEq, Repr

/-- Either kind of option. -/
inductive OptionKind
  | value (option : ValueOption)
  | switch (switch : Switch)
  deriving DecidableEq, Repr

/-- What the arguments of a command ask for. -/
structure Arguments where
  input : Option String := none
  output : Option String := none
  settings : Option String := none
  language : Option String := none
  indent : Option String := none
  echo : Bool := false
  json : Bool := false
  pause : Bool := false
  verbose : Nat := 0
  quiet : Bool := false
  deriving DecidableEq, Repr

/-- Why reading the arguments ends early. -/
inductive ArgumentsEnd
  /-- The user asks for help. -/
  | help
  /-- The user asks for the version. -/
  | version
  /-- The arguments make no sense. -/
  | misuse
  deriving DecidableEq, Repr

namespace OptionKind

/-- The option of a long name. -/
def ofName (name : String) : Option OptionKind :=
  [("output", .value .output), ("config", .value .settings), ("from", .value .language),
    ("indent", .value .indent), ("echo", .switch .echo), ("json", .switch .json),
    ("pause", .switch .pause), ("verbose", .switch .verbose), ("quiet", .switch .quiet),
    ("help", .switch .help), ("version", .switch .version)].lookup name

/-- The option of a letter. -/
def ofLetter (letter : Char) : Option OptionKind :=
  [('o', .value .output), ('c', .value .settings), ('v', .switch .verbose),
    ('q', .switch .quiet), ('h', .switch .help), ('V', .switch .version)].lookup letter

end OptionKind

namespace Arguments

/-- Accept a value for a setting that has none yet. -/
def fill (held : Option String) (value : String) : Except ArgumentsEnd (Option String) :=
  if held.isSome then .error .misuse else .ok (some value)

/-- Accept a path for a setting that has none yet. A path is not empty. -/
def fillPath (held : Option String) (path : String) : Except ArgumentsEnd (Option String) :=
  if path.isEmpty then .error .misuse else fill held path

/-- Give a value to an option. No option is given twice. -/
def give (arguments : Arguments) (option : ValueOption) (value : String) :
    Except ArgumentsEnd Arguments :=
  match option with
  | .output => (fillPath arguments.output value).map fun held => { arguments with output := held }
  | .settings =>
    (fillPath arguments.settings value).map fun held => { arguments with settings := held }
  | .language => (fill arguments.language value).map fun held => { arguments with language := held }
  | .indent => (fill arguments.indent value).map fun held => { arguments with indent := held }

/-- Turn a switch on. Only the one for more messages counts its uses. -/
def turnOn (arguments : Arguments) (switch : Switch) : Except ArgumentsEnd Arguments :=
  match switch with
  | .echo => if arguments.echo then .error .misuse else .ok { arguments with echo := true }
  | .json => if arguments.json then .error .misuse else .ok { arguments with json := true }
  | .pause => if arguments.pause then .error .misuse else .ok { arguments with pause := true }
  | .quiet => if arguments.quiet then .error .misuse else .ok { arguments with quiet := true }
  | .verbose => .ok { arguments with verbose := arguments.verbose + 1 }
  | .help => .error .help
  | .version => .error .version

/-- Take an argument that is no option: the input directory, given at most once. -/
def takeInput (arguments : Arguments) (path : String) : Except ArgumentsEnd Arguments :=
  (fillPath arguments.input path).map fun held => { arguments with input := held }

/-- Take the arguments behind the end of the options. -/
def takeInputs (arguments : Arguments) : List String → Except ArgumentsEnd Arguments
  | [] => .ok arguments
  | path :: rest =>
    match arguments.takeInput path with
    | .ok taken => taken.takeInputs rest
    | .error stop => .error stop

/-- Take the letters behind one dash. The result names the option that still waits for
its value. -/
def takeLetters (arguments : Arguments) :
    List Char → Except ArgumentsEnd (Arguments × Option ValueOption)
  | [] => .ok (arguments, none)
  | letter :: rest =>
    match OptionKind.ofLetter letter with
    | none => .error .misuse
    | some (.switch switch) =>
      match arguments.turnOn switch with
      | .ok turned => turned.takeLetters rest
      | .error stop => .error stop
    | some (.value option) =>
      match rest with
      | [] => .ok (arguments, some option)
      | '=' :: value => (arguments.give option (String.ofList value)).map (·, none)
      | value => (arguments.give option (String.ofList value)).map (·, none)

/-- Take the characters behind two dashes: a name, or a name and its value. -/
def takeName (arguments : Arguments) (chars : List Char) :
    Except ArgumentsEnd (Arguments × Option ValueOption) :=
  let name := String.ofList (chars.takeWhile (· != '='))
  match OptionKind.ofName name, chars.dropWhile (· != '=') with
  | some (.switch switch), [] => (arguments.turnOn switch).map (·, none)
  | some (.value option), [] => .ok (arguments, some option)
  | some (.value option), _ :: value => (arguments.give option (String.ofList value)).map (·, none)
  | _, _ => .error .misuse

/-- Take one argument before the end of the options. -/
def take (arguments : Arguments) (argument : String) :
    Except ArgumentsEnd (Arguments × Option ValueOption) :=
  match argument.toList with
  | '-' :: '-' :: chars => arguments.takeName chars
  | ['-'] => (arguments.takeInput argument).map (·, none)
  | '-' :: letters => arguments.takeLetters letters
  | _ => (arguments.takeInput argument).map (·, none)

/-- True of an argument that cannot be the value of the option before it. -/
def isOption (argument : String) : Bool :=
  match argument.toList with
  | '-' :: _ :: _ => true
  | _ => false

/-- Take arguments one after the other; `waiting` is the option whose value comes next. -/
def takeAll (arguments : Arguments) (waiting : Option ValueOption) :
    List String → Except ArgumentsEnd Arguments
  | [] => if waiting.isSome then .error .misuse else .ok arguments
  | argument :: rest =>
    match waiting with
    | some option =>
      if isOption argument then .error .misuse
      else
        match arguments.give option argument with
        | .ok given => given.takeAll none rest
        | .error stop => .error stop
    | none =>
      if argument = "--" then arguments.takeInputs rest
      else
        match arguments.take argument with
        | .ok (taken, waiting) => taken.takeAll waiting rest
        | .error stop => .error stop

/-- Read the arguments of a command. More and fewer messages cannot both be asked for. -/
def read (arguments : List String) : Except ArgumentsEnd Arguments :=
  match takeAll {} none arguments with
  | .ok taken => if taken.quiet ∧ 0 < taken.verbose then .error .misuse else .ok taken
  | .error stop => .error stop

example : read ["-vvo", "out", "src"] =
    .ok { verbose := 2, output := some "out", input := some "src" } := rfl
example : read ["-v", "-q"] = .error .misuse := rfl
example : read ["--indent=", "--version"] = .error .version := rfl
example : read ["-o", "--version"] = .error .misuse := rfl

end Arguments

end BasicToSharp
