import Typescribe.Manifest.Basic

/-!
# The command line

Words are taken from left to right, and the first thing wrong decides. An option that waits for
its value, or has it, is settled when the next option comes, so an error in it comes before a
request for help that follows.
-/

namespace Typescribe

/-- What the program is asked to do. -/
inductive Command where
  /-- Generate files, into another directory than the manifest's if one is given, or only show
  them. -/
  | generate (config : Path) (output : Option Path) (isDryRun : Bool)
  /-- Check that every type is declared. -/
  | check (config : Path)
  deriving DecidableEq, Repr

/-- What a command line asks for. -/
inductive Invocation where
  | run (command : Command)
  | help
  | version
  /-- The command line is not understood. -/
  | misuse
  deriving DecidableEq, Repr

namespace CommandLine

/-- The commands that take options. -/
inductive Verb where
  | generate
  | check
  deriving DecidableEq, Repr

/-- An option that takes a value. -/
inductive ValueOption where
  | config
  | output
  deriving DecidableEq, Repr

/-- What an option is by its name. -/
inductive OptionKind where
  | value (option : ValueOption)
  | dryRun
  | help
  | unknown
  deriving DecidableEq, Repr

/-- The option of a long name. -/
def Verb.longOption (verb : Verb) (name : List Char) : OptionKind :=
  if name = "help".toList then .help
  else if name = "config".toList then .value .config
  else if verb = .generate ∧ name = "output".toList then .value .output
  else if verb = .generate ∧ name = "dry-run".toList then .dryRun
  else .unknown

/-- The option of a letter. -/
def Verb.shortOption (verb : Verb) (letter : Char) : OptionKind :=
  if letter = 'h' then .help
  else if letter = 'c' then .value .config
  else if verb = .generate ∧ letter = 'o' then .value .output
  else .unknown

/-- The options given so far. -/
structure Options where
  config : Option String := none
  output : Option String := none
  isDryRun : Bool := false
  /-- The option whose value is still open, with the value if it has come. -/
  open? : Option (ValueOption × Option String) := none
  deriving DecidableEq, Repr

namespace Options

/-- Gives a value to an option. The value must not be empty, nor the option have one. -/
def set (options : Options) (option : ValueOption) (value : String) : Option Options :=
  if value.isEmpty then none
  else
    match option with
    | .config =>
      if options.config.isSome then none else some { options with config := some value }
    | .output =>
      if options.output.isSome then none else some { options with output := some value }

/-- Settles the option whose value is still open. -/
def settle (options : Options) : Option Options :=
  match options.open? with
  | none => some options
  | some (_, none) => none
  | some (option, some value) => { options with open? := none }.set option value

/-- The command that the options make of a verb. -/
def command (options : Options) : Verb → Command
  | .generate =>
    .generate ⟨options.config.getD Manifest.standardName⟩
      (options.output.map fun dir => ⟨dir⟩) options.isDryRun
  | .check => .check ⟨options.config.getD Manifest.standardName⟩

end Options

/-- What one word of a command line comes to. -/
inductive Progress where
  | more (options : Options)
  | help
  | misuse

/-- The options, if they are all right. -/
def Progress.ofOption : Option Options → Progress
  | some options => .more options
  | none => .misuse

/-- Takes an option with the value that is attached to it, if one is. -/
def takeOption (options : Options) (kind : OptionKind) (attached : Option String) : Progress :=
  match kind, options.settle with
  | .unknown, _ => .misuse
  | _, none => .misuse
  | .help, some _ => if attached.isSome then .misuse else .help
  | .dryRun, some settled =>
    if attached.isSome || settled.isDryRun then .misuse
    else .more { settled with isDryRun := true }
  | .value option, some settled =>
    match attached with
    | some value => .ofOption (settled.set option value)
    | none => .more { settled with open? := some (option, none) }

/-- The name and the attached value of a long option, behind its dashes. -/
def splitLong (body : List Char) : List Char × Option String :=
  (body.takeWhile fun c => c != '=',
    (body.dropWhile fun c => c != '=').tail?.map String.ofList)

/-- The value that is attached to a letter. -/
def attachedToLetter : List Char → Option String
  | [] => none
  | '=' :: value => some (String.ofList value)
  | value => some (String.ofList value)

/-- Takes a word in front of which no bare pair of dashes stands. -/
def takeWord (verb : Verb) (options : Options) (word : String) : Progress :=
  match word.toList with
  | '-' :: '-' :: body =>
    let (name, attached) := splitLong body
    takeOption options (verb.longOption name) attached
  | '-' :: letter :: rest =>
    match verb.shortOption letter with
    | .help => takeOption options .help none
    | kind => takeOption options kind (attachedToLetter rest)
  | _ =>
    match options.open? with
    | some (option, none) => .more { options with open? := some (option, some word) }
    | _ => .misuse

/-- Takes the words behind a verb. Nothing may follow a bare pair of dashes. -/
def takeWords (verb : Verb) (options : Options) : List String → Invocation
  | [] =>
    match options.settle with
    | some settled => .run (settled.command verb)
    | none => .misuse
  | "--" :: rest =>
    match options.settle, rest with
    | some settled, [] => .run (settled.command verb)
    | _, _ => .misuse
  | word :: rest =>
    match takeWord verb options word with
    | .more options => takeWords verb options rest
    | .help => .help
    | .misuse => .misuse

/-- Whether words name something that there is help on. -/
def hasHelp : List String → Bool
  | [] => true
  | [word] => ["generate", "check", "help"].contains word
  | _ => false

/-- Takes a word in front of any verb. -/
def takeFlag (word : String) : Invocation :=
  match word.toList with
  | ['-', '-', 'h', 'e', 'l', 'p'] => .help
  | ['-', '-', 'v', 'e', 'r', 's', 'i', 'o', 'n'] => .version
  | '-' :: 'h' :: _ => .help
  | '-' :: 'V' :: _ => .version
  | _ => .misuse

/-- What a list of words asks for. -/
def parse : List String → Invocation
  | [] => .misuse
  | "generate" :: rest => takeWords .generate {} rest
  | "check" :: rest => takeWords .check {} rest
  | "help" :: rest => if hasHelp rest then .help else .misuse
  | word :: _ => takeFlag word

end CommandLine

end Typescribe
