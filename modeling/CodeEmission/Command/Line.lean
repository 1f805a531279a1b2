import CodeEmission.Command.Settings
import CodeEmission.Text.EditDistance
import CodeEmission.Version

/-!
# The Command Line

The first word that is neither a flag nor the value of one names a command. At that point the flags
of the command are not known yet: a flag that not every command has counts as one that takes a
value, unless it has an equals sign.

The rest of the line is then read with the flags of the command, and the number of its arguments is
looked at.
-/

namespace CodeEmission.Command

/-- The commands. `root` is the program without a command. -/
inductive Verb where
  | root | emit | targets | profile | version | completion | help
  deriving DecidableEq, Repr

namespace Verb

/-- The name of a command. -/
def name : Verb → String
  | root => ""
  | emit => "emit"
  | targets => "targets"
  | profile => "profile"
  | version => "version"
  | completion => "completion"
  | help => "help"

/-- The commands that are suggested for a word that is none. -/
def suggested : List Verb := [emit, targets, profile, version, completion]

/-- The command of a name. -/
def ofName? (s : String) : Option Verb :=
  (help :: suggested).find? fun v => v.name = s

/-- The flag that asks for help. -/
def helpFlag : Flag := { name := "help", kind := .switch, letter? := some 'h' }

/-- The flags of a command. -/
def flags : Verb → List Flag
  | root => { name := "version", kind := .switch, letter? := some 'v' } :: helpFlag :: commonFlags
  | emit => helpFlag :: emitFlags ++ commonFlags
  | profile | version => helpFlag :: { name := "format" } :: commonFlags
  | targets | completion | help => helpFlag :: commonFlags

/-- The program and a command. -/
def path (v : Verb) : String :=
  if v = root then Version.tool else Version.tool ++ " " ++ v.name

end Verb

/-- Whether a word is a flag that takes the next word for its value, as far as the flags tell. -/
def takesNext (flags : List Flag) (word : String) : Bool :=
  match word.toList with
  | '-' :: '-' :: name =>
    !name.contains '=' &&
      !(flags.any fun f => f.name = String.ofList name && f.kind = .switch)
  | ['-', c] =>
    c ≠ '=' && c.utf8Size = 1 && !(flags.any fun f => f.letter? = some c && f.kind = .switch)
  | _ => false

/-- Whether a word starts like a flag. -/
def isFlagLike (word : String) : Bool :=
  word.toList.head? = some '-'

/-- The words that are neither flags nor values of flags, up to the end of the flags. -/
def plainWords (flags : List Flag) : List String → List String
  | [] => []
  | word :: rest =>
    if word = "--" then []
    else if takesNext flags word then
      match rest with
      | _ :: more => plainWords flags more
      | [] => []
    else if word = "" ∨ isFlagLike word then plainWords flags rest
    else word :: plainWords flags rest

/-- The words without the first plain one that is a given word. -/
def dropPlainWord (flags : List Flag) (name : String) : List String → List String
  | [] => []
  | word :: rest =>
    if word = "--" then word :: rest
    else if takesNext flags word then
      match rest with
      | value :: more => word :: value :: dropPlainWord flags name more
      | [] => [word]
    else if word = name then rest
    else word :: dropPlainWord flags name rest

/-- Why a command line is refused, flags apart. -/
inductive UsageError where
  | unknownCommand (word : String)
  | strayArgument (verb : Verb) (word : String)
  | tooFew (received : Nat)
  | notOne (received : Nat)
  deriving DecidableEq, Repr

/-- The bytes of a word in lower case. -/
def foldedBytes (s : String) : List UInt8 :=
  Text.bytesOfText (Text.lower s)

/-- The commands that someone who wrote a word may have meant: their names are at most two edits
away, or start with the word. -/
def suggestionsFor (word : String) : List String :=
  (Verb.suggested.map Verb.name).filter fun name =>
    Text.editDistance (foldedBytes word) (foldedBytes name) ≤ 2 ||
      (foldedBytes word).isPrefixOf (foldedBytes name)

/-- The suggestions for a word as a list, if there are any. -/
def suggestionText (word : String) : String :=
  match suggestionsFor word with
  | [] => ""
  | names => "\n\nDid you mean this?\n" ++ String.join (names.map fun n => "\t" ++ n ++ "\n")

/-- The wording of a failure. -/
def UsageError.message : UsageError → String
  | unknownCommand word =>
    "unknown command " ++ Text.quote word ++ " for " ++ Text.quote Version.tool ++
      suggestionText word
  | strayArgument verb word =>
    "unknown command " ++ Text.quote word ++ " for " ++ Text.quote verb.path
  | tooFew received => "requires at least 1 arg(s), only received " ++ Nat.repr received
  | notOne received => "accepts 1 arg(s), received " ++ Nat.repr received

/-- The command of a line and the words that are left for it. -/
def chooseVerb (words : List String) : Except UsageError (Verb × List String) :=
  match plainWords commonFlags words with
  | [] => .ok (.root, words)
  | word :: _ =>
    match Verb.ofName? word with
    | some verb => .ok (verb, dropPlainWord commonFlags word words)
    | none => .error (.unknownCommand word)

/-- Look at the number of arguments of a command. -/
def checkArguments (verb : Verb) (arguments : List String) : Except UsageError Unit :=
  match verb, arguments with
  | .emit, [] => .error (.tooFew 0)
  | .profile, [_] => .ok ()
  | .profile, _ => .error (.notOne arguments.length)
  | .targets, word :: _ | .version, word :: _ => .error (.strayArgument verb word)
  | _, _ => .ok ()

end CodeEmission.Command
