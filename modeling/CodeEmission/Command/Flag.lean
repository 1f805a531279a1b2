import CodeEmission.Text.Numeral
import CodeEmission.Text.Quoted

/-!
# Flags

A command line is a list of words: flags, values of flags, and arguments. A flag is written
`--name value` or `--name=value`, or with a single letter as `-n value`, `-nvalue` or `-n=value`;
letters of switches may be joined in one word. A switch takes a value only after an equals sign. The
word `--` ends the flags, and a lone `-` is an argument. Flags of a test runner, `-test.` and more,
mean nothing here.

`parse` reads the words from left to right. A flag that still waits for its value is part of the
state, so the reader is a fold over the words.
-/

namespace CodeEmission.Command

/-- What the value of a flag is. -/
inductive FlagKind where
  | text | switch | number
  deriving DecidableEq, Repr

/-- A flag. -/
structure Flag where
  /-- Its name, without dashes. -/
  name : String
  /-- What its value is. -/
  kind : FlagKind := .text
  /-- The letter that stands for it. -/
  letter? : Option Char := none
  deriving DecidableEq, Repr

/-- The value of a flag. -/
inductive FlagValue where
  | text (s : String)
  | switch (on : Bool)
  | number (n : Int64)
  deriving DecidableEq, Repr

/-- Why a value does not fit a flag. -/
inductive ValueError where
  | noSwitch
  | noNumber (cause : Text.NumeralError)
  deriving DecidableEq, Repr

/-- Why the words could not be read. -/
inductive FlagError where
  | badForm (word : String)
  | unknown (name : String)
  | unknownLetter (letter : Char) (word : String)
  | noValue (name : String)
  | noLetterValue (letter : Char) (word : String)
  | badValue (flag : Flag) (value : String) (cause : ValueError)
  | helpWanted
  deriving DecidableEq, Repr

/-- A flag with all its spellings. -/
def Flag.spellings (f : Flag) : String :=
  match f.letter? with
  | some c => "-" ++ c.toString ++ ", --" ++ f.name
  | none => "--" ++ f.name

/-- The character that is numbered by the first byte of a character. -/
def leadChar (c : Char) : Char :=
  Char.ofNat ((String.utf8EncodeChar c).head?.getD 0).toNat

/-- A letter between single quotes. The letter is a single byte, and one that belongs to a longer
character is shown by the lead of its own two-byte form. -/
def quoteLetter (c : Char) : String :=
  let shown := leadChar (leadChar c)
  "'" ++ (if shown = '\x27' then "\\'" else if shown = '\x22' then "\x22"
    else String.ofList (Text.quoteChar shown)) ++ "'"

/-- The wording of a value that does not fit. -/
def ValueError.message (value : String) : ValueError → String
  | noSwitch => "strconv.ParseBool: parsing " ++ Text.quote value ++ ": invalid syntax"
  | noNumber cause =>
    "strconv.ParseInt: parsing " ++ Text.quote value ++ ": " ++ cause.message

/-- The wording of a failure. -/
def FlagError.message : FlagError → String
  | badForm word => "bad flag syntax: " ++ word
  | unknown name => "unknown flag: --" ++ name
  | unknownLetter letter word => "unknown shorthand flag: " ++ quoteLetter letter ++ " in -" ++ word
  | noValue name => "flag needs an argument: --" ++ name
  | noLetterValue letter word =>
    "flag needs an argument: " ++ quoteLetter letter ++ " in -" ++ word
  | badValue flag value cause =>
    "invalid argument " ++ Text.quote value ++ " for " ++ Text.quote flag.spellings ++ " flag: " ++
      cause.message value
  | helpWanted => "pflag: help requested"

/-- A truth value in one of its spellings. -/
def switchOf? (s : String) : Option Bool :=
  if s ∈ ["1", "t", "T", "true", "TRUE", "True"] then some true
  else if s ∈ ["0", "f", "F", "false", "FALSE", "False"] then some false
  else none

/-- The value that a text stands for. -/
def Flag.valueOf (f : Flag) (s : String) : Except FlagError FlagValue :=
  match f.kind with
  | .text => .ok (.text s)
  | .switch =>
    match switchOf? s with
    | some b => .ok (.switch b)
    | none => .error (.badValue f s .noSwitch)
  | .number =>
    match Text.parseInt64 s with
    | .ok n => .ok (.number n)
    | .error cause => .error (.badValue f s (.noNumber cause))

/-- A command line that was read so far. -/
structure Words where
  /-- The flags and their values, the last one first. -/
  given : List (String × FlagValue) := []
  /-- The arguments, in order. -/
  arguments : List String := []
  /-- The flag that waits for its value, and the failure if none comes. -/
  waiting? : Option (Flag × FlagError) := none
  /-- Whether the flags have ended. -/
  ended : Bool := false
  deriving DecidableEq, Repr, Inhabited

namespace Words

/-- Give a flag a value. -/
def put (w : Words) (f : Flag) (value : String) : Except FlagError Words :=
  (f.valueOf value).map fun v => { w with given := (f.name, v) :: w.given, waiting? := none }

/-- Read a word of letters. What starts with `test.` is meant for a test runner and passed over. -/
def letters (flags : List Flag) : List Char → Words → Except FlagError Words
  | [], w => .ok w
  | 't' :: 'e' :: 's' :: 't' :: '.' :: _, w => .ok w
  | c :: more, w =>
    match flags.find? fun f => f.letter? = some c with
    | none =>
      .error (if c = 'h' then .helpWanted else .unknownLetter c (String.ofList (c :: more)))
    | some f =>
      match more with
      | '=' :: d :: rest => w.put f (String.ofList (d :: rest))
      | _ =>
        if f.kind = .switch then (w.put f "true").bind (letters flags more)
        else if more.isEmpty then .ok { w with waiting? := some (f, .noLetterValue c c.toString) }
        else w.put f (String.ofList more)

/-- Read a word with the name of a flag, which stands here without its dashes. -/
def named (flags : List Flag) (word : List Char) (w : Words) : Except FlagError Words :=
  let name := String.ofList (word.takeWhile (· ≠ '='))
  let value? := match word.dropWhile (· ≠ '=') with
    | _ :: value => some (String.ofList value)
    | [] => none
  if word.head? = some '-' ∨ word.head? = some '=' then
    .error (.badForm ("--" ++ String.ofList word))
  else match flags.find? fun f => f.name = name, value? with
    | none, _ => .error (if name = "help" then .helpWanted else .unknown name)
    | some f, some value => w.put f value
    | some f, none =>
      if f.kind = .switch then w.put f "true"
      else .ok { w with waiting? := some (f, .noValue name) }

/-- Read a word. -/
def step (flags : List Flag) (w : Words) (word : String) : Except FlagError Words :=
  match w.waiting? with
  | some (f, _) => w.put f word
  | none =>
    if w.ended then .ok { w with arguments := w.arguments ++ [word] }
    else match word.toList with
      | ['-', '-'] => .ok { w with ended := true }
      | '-' :: '-' :: rest => named flags rest w
      | '-' :: c :: rest => letters flags (c :: rest) w
      | _ => .ok { w with arguments := w.arguments ++ [word] }

/-- Read a command line. -/
def parse (flags : List Flag) (words : List String) : Except FlagError Words := do
  let w ← words.foldlM (step flags) {}
  match w.waiting? with
  | some (_, failure) => throw failure
  | none => return w

/-- The value of a flag, if it was given; the last one counts. -/
def value? (w : Words) (name : String) : Option FlagValue :=
  w.given.lookup name

/-- The text of a flag, if it was given. -/
def text? (w : Words) (name : String) : Option String :=
  match w.value? name with
  | some (.text s) => some s
  | _ => none

/-- The position of a switch, if it was given. -/
def switch? (w : Words) (name : String) : Option Bool :=
  match w.value? name with
  | some (.switch b) => some b
  | _ => none

/-- The number of a flag, if it was given. -/
def number? (w : Words) (name : String) : Option Int64 :=
  match w.value? name with
  | some (.number n) => some n
  | _ => none

/-- The text of a flag that is empty unless it was given. -/
def text (w : Words) (name : String) : String :=
  (w.text? name).getD ""

/-- Whether a switch was set. -/
def isOn (w : Words) (name : String) : Bool :=
  (w.switch? name).getD false

end Words

end CodeEmission.Command
