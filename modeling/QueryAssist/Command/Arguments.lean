/-!
# Command-line arguments

The subcommands and their options. Options may stand before, between and after
the other arguments; a value follows its option as the next argument, after an
equals sign, or right after a short name.
-/

namespace QueryAssist.Command

/-! ## Requests -/

/-- How findings are shown. -/
inductive Format where
  | human
  | json
  | sarif
  deriving DecidableEq, Repr

def Format.name : Format → String
  | human => "human"
  | json => "json"
  | sarif => "sarif"

def Format.all : List Format := [.human, .json, .sarif]

/-- Where the catalog comes from, and the dialect. -/
structure SchemaOptions where
  schema : List String := []
  schemaDir : Option String := none
  dialect : Option String := none
  config : Option String := none
  deriving DecidableEq, Repr

/-- A position in a file. -/
structure Place where
  file : String
  line : Nat
  column : Nat
  deriving DecidableEq, Repr

/-- What a subcommand is asked to do. -/
inductive Request where
  | check (files : List String) (schema : SchemaOptions)
      (format : Option Format) (disable : List String)
  | complete (place : Place) (schema : SchemaOptions) (limit : Nat)
      (json : Bool)
  | hover (place : Place) (schema : SchemaOptions) (json : Bool)
  | schema (files : List String) (dialect : Option String) (json : Bool)
  | outline (file : String)
  deriving DecidableEq, Repr

structure Invocation where
  request : Request
  quiet : Bool := false
  deriving DecidableEq, Repr

/-- Why arguments lead to no request. -/
inductive Interrupt where
  /-- The version is asked for, of the program or of a subcommand. -/
  | version (subcommand : Option String)
  | help
  | misuse
  deriving DecidableEq, Repr

/-! ## Options -/

inductive OptionName where
  | schema
  | schemaDir
  | dialect
  | config
  | format
  | disable
  | line
  | column
  | limit
  | json
  | quiet
  | verbose
  | version
  | help
  deriving DecidableEq, Repr

namespace OptionName

def long : OptionName → String
  | schema => "schema"
  | schemaDir => "schema-dir"
  | dialect => "dialect"
  | config => "config"
  | format => "format"
  | disable => "disable"
  | line => "line"
  | column => "column"
  | limit => "limit"
  | json => "json"
  | quiet => "quiet"
  | verbose => "verbose"
  | version => "version"
  | help => "help"

def short? : OptionName → Option Char
  | schema => some 's'
  | dialect => some 'd'
  | config => some 'c'
  | format => some 'f'
  | line => some 'l'
  | column => some 'C'
  | quiet => some 'q'
  | verbose => some 'v'
  | version => some 'V'
  | help => some 'h'
  | schemaDir | disable | limit | json => none

def takesValue : OptionName → Bool
  | json | quiet | verbose | version | help => false
  | _ => true

/-- Whether the option may be given more than once. -/
def repeats : OptionName → Bool
  | schema | disable | verbose => true
  | _ => false

end OptionName

/-- A natural number of 64 bits; a plus sign may stand in front. -/
def number? (text : String) : Option Nat :=
  let digits := match text.toList with
    | '+' :: rest => rest
    | cs => cs
  if digits.isEmpty || !digits.all Char.isDigit then none
  else
    let value := digits.foldl (fun n c => 10 * n + (c.toNat - '0'.toNat)) 0
    if value < Nat.pow 2 64 then some value else none

def format? (text : String) : Option Format := Format.all.find? (·.name == text)

/-- Whether an option takes this text as its value. -/
def OptionName.accepts (option : OptionName) (value : String) : Bool :=
  match option with
  | schema | schemaDir | config => !value.isEmpty
  | format => (format? value).isSome
  | line | column | limit => (number? value).isSome
  | _ => true

/-! ## Subcommands -/

inductive Subcommand where
  | check
  | complete
  | hover
  | schema
  | outline
  deriving DecidableEq, Repr

namespace Subcommand

def name : Subcommand → String
  | check => "check"
  | complete => "complete"
  | hover => "hover"
  | schema => "schema"
  | outline => "outline"

def all : List Subcommand := [check, complete, hover, schema, outline]

def ofName? (name : String) : Option Subcommand := all.find? (·.name == name)

end Subcommand

/-- Options that stand before and after the subcommand. -/
def globalOptions : List OptionName := [.quiet, .verbose, .version, .help]

def schemaOptions : List OptionName := [.schema, .schemaDir, .dialect, .config]

def Subcommand.options : Subcommand → List OptionName
  | check => schemaOptions ++ [.format, .disable] ++ globalOptions
  | complete =>
    schemaOptions ++ [.line, .column, .limit, .json] ++ globalOptions
  | hover => schemaOptions ++ [.line, .column, .json] ++ globalOptions
  | schema => [.dialect, .json] ++ globalOptions
  | outline => globalOptions

/-- How many other arguments a subcommand takes at most. -/
def Subcommand.capacity? : Subcommand → Option Nat
  | check | schema => none
  | complete | hover | outline => some 1

/-! ## Reading options -/

/-- What the arguments say. -/
structure Given where
  options : List (OptionName × String) := []
  others : List String := []
  deriving DecidableEq, Repr

namespace Given

/-- The values of an option. -/
def values (given : Given) (option : OptionName) : List String :=
  (given.options.filter (·.1 == option)).map Prod.snd

def has (given : Given) (option : OptionName) : Bool :=
  given.options.any (·.1 == option)

/-- The arguments with one more option. -/
def add (subcommand : Option String) (given : Given) (option : OptionName)
    (value : String) : Except Interrupt Given :=
  if given.has option && !option.repeats || !option.accepts value then
    .error .misuse
  else
    match option with
    | .version => .error (.version subcommand)
    | .help => .error .help
    | _ => .ok { given with options := given.options ++ [(option, value)] }

end Given

/-- What an argument is. -/
inductive Argument where
  /-- Two dashes: what follows are no options. -/
  | escape
  /-- A long option, with the value after its equals sign. -/
  | long (name : String) (value : Option String)
  /-- Short options, one after the other. -/
  | short (letters : List Char)
  | other (text : String)
  deriving DecidableEq, Repr

def Argument.ofText (text : String) : Argument :=
  match text.toList with
  | ['-', '-'] => .escape
  | '-' :: '-' :: rest =>
    let name := rest.takeWhile (· != '=')
    .long (String.ofList name)
      (if name.length < rest.length then
          some (String.ofList (rest.drop (name.length + 1)))
        else none)
  | '-' :: c :: rest => .short (c :: rest)
  | _ => .other text

/-- The options of a run of short names. An option that takes a value takes the
rest of the run, or is left without one as the last of them. -/
def shortOptions (allowed : List OptionName) :
    List Char → Except Interrupt (List (OptionName × Option String))
  | [] => .ok []
  | c :: rest => do
    match allowed.find? (·.short? == some c) with
    | none => .error .misuse
    | some option =>
      if option.takesValue then
        match rest with
        | [] => return [(option, none)]
        | '=' :: value => return [(option, some (String.ofList value))]
        | value => return [(option, some (String.ofList value))]
      else return (option, some "") :: (← shortOptions allowed rest)

/-- The options that an argument gives; of these only the last may
lack its value. -/
def Argument.options (allowed : List OptionName) :
    Argument → Except Interrupt (List (OptionName × Option String))
  | .long name value =>
    match allowed.find? (·.long == name), value with
    | none, _ => .error .misuse
    | some option, some value =>
      if option.takesValue then .ok [(option, some value)] else .error .misuse
    | some option, none =>
      .ok [(option, if option.takesValue then none else some "")]
  | .short letters => shortOptions allowed letters
  | .escape | .other _ => .ok []

/-- Adds options that have their values; the one that lacks it, if any, is
given back. -/
def Given.addAll (subcommand : Option String) (given : Given) :
    List (OptionName × Option String) →
      Except Interrupt (Given × Option OptionName)
  | [] => .ok (given, none)
  | (option, none) :: _ => .ok (given, some option)
  | (option, some value) :: rest =>
    do (← given.add subcommand option value).addAll subcommand rest

/-- Reads the arguments of a subcommand. `pending` is an option that waits for
its value, and `escaped` tells whether options are still recognised. -/
def readArguments (subcommand : Subcommand) (pending : Option OptionName)
    (escaped : Bool) (given : Given) : List String → Except Interrupt Given
  | [] => if pending.isSome then .error .misuse else .ok given
  | text :: rest => do
    match pending, escaped, Argument.ofText text with
    | some option, false, .other value =>
      readArguments subcommand none false
        (← given.add (some subcommand.name) option value) rest
    | some _, _, _ => .error .misuse
    | none, false, .escape => readArguments subcommand none true given rest
    | none, false, .long name value =>
      let (given, pending) ← given.addAll (some subcommand.name)
        (← (Argument.long name value).options subcommand.options)
      readArguments subcommand pending false given rest
    | none, false, .short letters =>
      let (given, pending) ← given.addAll (some subcommand.name)
        (← (Argument.short letters).options subcommand.options)
      readArguments subcommand pending false given rest
    | none, _, _ =>
      if text.isEmpty || subcommand.capacity?.any (· ≤ given.others.length) then
        .error .misuse
      else
        readArguments subcommand none escaped
          { given with others := given.others ++ [text] } rest

/-! ## Requests from options -/

def require (value : Option α) : Except Interrupt α :=
  match value with
  | some a => .ok a
  | none => .error .misuse

namespace Given

def schemaChoice (given : Given) : SchemaOptions :=
  { schema := given.values .schema
    schemaDir := (given.values .schemaDir).head?
    dialect := (given.values .dialect).head?
    config := (given.values .config).head? }

def place (given : Given) : Except Interrupt Place := do
  return { file := ← require given.others.head?
           line := ← require ((given.values .line).head?.bind number?)
           column := ← require ((given.values .column).head?.bind number?) }

def request (given : Given) : Subcommand → Except Interrupt Request
  | .check =>
    .ok (.check given.others given.schemaChoice
      ((given.values .format).head?.bind format?) (given.values .disable))
  | .complete => do
    let limit := ((given.values .limit).head?.bind number?).getD 50
    return .complete (← given.place) given.schemaChoice limit (given.has .json)
  | .hover =>
    do return .hover (← given.place) given.schemaChoice (given.has .json)
  | .schema => do
    if given.others.isEmpty then .error .misuse
    return .schema given.others (given.values .dialect).head? (given.has .json)
  | .outline => do return .outline (← require given.others.head?)

end Given

/-- Reads the arguments before the subcommand, and then those after it. -/
def readInvocation (given : Given) : List String → Except Interrupt Invocation
  | [] => .error .misuse
  | text :: rest => do
    match Argument.ofText text with
    | .escape => .error .misuse
    | .long name value =>
      let (given, _) ←
        given.addAll none (← (Argument.long name value).options globalOptions)
      readInvocation given rest
    | .short letters =>
      let (given, _) ←
        given.addAll none (← (Argument.short letters).options globalOptions)
      readInvocation given rest
    | .other name =>
      match Subcommand.ofName? name with
      | some subcommand =>
        let inner ← readArguments subcommand none false {} rest
        return { request := ← inner.request subcommand,
                 quiet := given.has .quiet || inner.has .quiet }
      | none =>
        if name = "help" ∧
          rest.all (fun n => n = "help" ∨ (Subcommand.ofName? n).isSome) then
          .error .help
        else .error .misuse

/-- The request that arguments make. -/
def Invocation.ofArguments (arguments : List String) :
    Except Interrupt Invocation :=
  readInvocation {} arguments

end QueryAssist.Command
