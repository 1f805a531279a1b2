import CodeEmission.Toml.Literal
import CodeEmission.Toml.Number

/-!
# Reading TOML Statements

A document is a text of lines. `statements?` reads all of them or fails; a text that is no document
has no reading at all, so there is a single way to fail.

Characters that may stand nowhere in a document are looked for first. Values nest, so the readers
of values take a bound on the number of steps; twice the number of characters is always enough,
since every second step takes a character.
-/

namespace CodeEmission.Toml

/-- Whether all characters may stand in a document: no control characters but tabs and breaks, no
replacement character, and a carriage return only before a line feed. -/
def isLegal : List Char → Bool
  | [] => true
  | c :: rest =>
    if c == '\r' then rest.head? == some '\n' && isLegal rest
    else (c == '\t' || c == '\n' || (0x20 ≤ c.toNat && c.toNat ≠ 0x7f && c.toNat ≠ 0xfffd)) &&
      isLegal rest

/-- Pass over the blanks of a line. -/
def skipGaps (cs : List Char) : List Char :=
  cs.dropWhile isGap

/-- Pass over blanks, line breaks and comments. -/
def skipLines (cs : List Char) : List Char :=
  match cs with
  | [] => []
  | c :: rest =>
    if isGap c || isBreak c then skipLines rest
    else if c == '#' then skipLines (rest.dropWhile fun c => !isBreak c)
    else c :: rest
termination_by cs.length
decreasing_by
  · simp
  · have := (List.dropWhile_sublist (fun c => !isBreak c) (l := rest)).length_le
    simp_wf
    omega

/-- A character of a key without quotes. -/
def isKeyChar (c : Char) : Bool :=
  c.isAlphanum || c == '_' || c == '-'

/-- One name of a key. -/
def keyName : Reader String
  | '\x22' :: rest => basicText rest
  | '\x27' :: rest => plainText rest
  | cs =>
    let name := cs.takeWhile isKeyChar
    if name.isEmpty then none else some (String.ofList name, cs.drop name.length)

/-- The names of a key, with dots between them, and then its closing character. -/
def keyNames (closing : Char) : Nat → KeyPath → Reader Key
  | 0, _, _ => none
  | n + 1, parents, cs => do
    let (name, rest) ← keyName (skipGaps cs)
    match skipGaps rest with
    | c :: rest =>
      if c == closing then some ({ parents, last := name }, rest)
      else if c == '.' then keyNames closing n (parents ++ [name]) rest
      else none
    | [] => none

/-- A key up to its closing character. -/
def key (closing : Char) : Reader Key := fun cs =>
  keyNames closing cs.length [] cs

/-- A number, date or time that starts with a digit. A zero that no further digit follows is a
number. -/
def unsigned : Reader Literal
  | '0' :: 'b' :: rest => (baseInteger 2 rest).map fun (n, rest) => (.integer n, rest)
  | '0' :: 'o' :: rest => (baseInteger 8 rest).map fun (n, rest) => (.integer n, rest)
  | '0' :: 'x' :: rest => (baseInteger 16 rest).map fun (n, rest) => (.integer n, rest)
  | cs =>
    let digits := cs.takeWhile isNumeral
    match cs.drop digits.length with
    | c :: rest =>
      if c == '.' || c == 'e' || c == 'E' then
        let body := cs.takeWhile isFloatChar
        if isFloat body then some (.float (String.ofList body), cs.drop body.length) else none
      else if (c == '-' || c == ':') && digits ≠ ['0'] then
        -- a date or a time, of which no part is a lone zero: the reading starts over
        let body := cs.takeWhile isMomentChar
        if isMoment (momentForm body) then
          some (.moment (String.ofList (momentForm body)), cs.drop body.length)
        else none
      else (decimalInteger? false digits).map fun n => (.integer n, c :: rest)
    | [] => (decimalInteger? false digits).map fun n => (.integer n, [])

/-- A number after its sign. -/
def signed (negative : Bool) : Reader Literal
  | 'i' :: 'n' :: 'f' :: rest => some (.float "inf", rest)
  | 'n' :: 'a' :: 'n' :: rest => some (.float "nan", rest)
  | cs =>
    let digits := cs.takeWhile isNumeral
    if !cs.head?.any Char.isDigit then none
    else match cs.drop digits.length with
      | c :: rest =>
        if c == '.' || c == 'e' || c == 'E' then
          let body := cs.takeWhile isFloatChar
          if isFloat body then some (.float (String.ofList body), cs.drop body.length) else none
        else (decimalInteger? negative digits).map fun n => (.integer n, c :: rest)
      | [] => (decimalInteger? negative digits).map fun n => (.integer n, [])

/-- A value that holds no other values. -/
def scalar : Reader Literal
  | '\x22' :: '\x22' :: '\x22' :: rest =>
    (longBasicText rest).map fun (s, rest) => (.text s, rest)
  | '\x22' :: rest => (basicText rest).map fun (s, rest) => (.text s, rest)
  | '\x27' :: '\x27' :: '\x27' :: rest =>
    (longPlainText rest).map fun (s, rest) => (.text s, rest)
  | '\x27' :: rest => (plainText rest).map fun (s, rest) => (.text s, rest)
  | 't' :: 'r' :: 'u' :: 'e' :: rest => some (.boolean true, rest)
  | 'f' :: 'a' :: 'l' :: 's' :: 'e' :: rest => some (.boolean false, rest)
  | 'i' :: 'n' :: 'f' :: rest => some (.float "inf", rest)
  | 'n' :: 'a' :: 'n' :: rest => some (.float "nan", rest)
  | '+' :: rest => signed false rest
  | '-' :: rest => signed true rest
  | c :: rest => if c.isDigit then unsigned (c :: rest) else none
  | [] => none

mutual

/-- A value, blanks before it allowed. -/
def value : Nat → Reader Literal
  | 0, _ => none
  | n + 1, cs =>
    match skipGaps cs with
    | '[' :: rest => (items n rest).map fun (items, rest) => (.array items, rest)
    | '\x7b' :: rest =>
      match skipGaps rest with
      | '\x7d' :: rest => some (.inline [], rest)
      | rest => (entries n rest).map fun (entries, rest) => (.inline entries, rest)
    | cs => scalar cs

/-- The rest of an array. A comma may stand after the last item. -/
def items : Nat → Reader (List Literal)
  | 0, _ => none
  | n + 1, cs =>
    match skipLines cs with
    | ']' :: rest => some ([], rest)
    | cs => do
      let (item, rest) ← value n cs
      match skipLines rest with
      | ']' :: rest => some ([item], rest)
      | ',' :: rest => do
        let (more, rest) ← items n rest
        return (item :: more, rest)
      | _ => none

/-- The rest of an inline table with at least one more entry. It stands on one line, and no comma
may stand after the last entry. -/
def entries : Nat → Reader (List (Key × Literal))
  | 0, _ => none
  | n + 1, cs => do
    let (k, rest) ← key '=' cs
    let (v, rest) ← value n rest
    match skipGaps rest with
    | '\x7d' :: rest => some ([(k, v)], rest)
    | ',' :: rest => do
      let (more, rest) ← entries n rest
      return ((k, v) :: more, rest)
    | _ => none

end

/-- One statement. -/
def statement : Reader Statement
  | '[' :: '[' :: rest => do
    let (k, rest) ← key ']' rest
    match rest with
    | ']' :: rest => some (.element k, rest)
    | _ => none
  | '[' :: rest => (key ']' rest).map fun (k, rest) => (.table k, rest)
  | cs => do
    let (k, rest) ← key '=' cs
    let (v, rest) ← value (2 * cs.length + 2) rest
    return (.assign k v, rest)

/-- Whether a statement may end here: the line holds nothing more but a comment. -/
def endsLine (cs : List Char) : Bool :=
  match skipGaps cs with
  | [] => true
  | c :: _ => c == '#' || isBreak c

/-- The statements of a text, one a line. -/
def statementLines : Nat → List Char → Option (List Statement)
  | 0, _ => none
  | n + 1, cs =>
    match skipLines cs with
    | [] => some []
    | cs => do
      let (s, rest) ← statement cs
      if endsLine rest then
        let more ← statementLines n rest
        return s :: more
      else none

/-- The statements of a document. A byte-order mark at the start is passed over. -/
def statements? (text : String) : Option (List Statement) :=
  let cs := match text.toList with
    | '\uFEFF' :: rest => rest
    | cs => cs
  if isLegal cs then statementLines (cs.length + 1) cs else none

end CodeEmission.Toml
