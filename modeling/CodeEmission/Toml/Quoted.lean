import CodeEmission.Text.Hex

/-!
# TOML Strings

A string stands between single or double quotes, one of them or three. Between double quotes a
backslash starts an escape; between three quotes line breaks are allowed, the first one right after
the opening quotes does not count, and a backslash at the end of a line removes the break and the
blanks after it.

Reading has two steps: finding the closing quote, and resolving the escapes in what stands before.
-/

namespace CodeEmission.Toml

/-- A reader takes characters off the front of a text and gives what they stand for and the rest. -/
abbrev Reader (α : Type) := List Char → Option (α × List Char)

/-- A blank inside a line. -/
def isGap (c : Char) : Bool :=
  c == ' ' || c == '\t'

/-- A line break. -/
def isBreak (c : Char) : Bool :=
  c == '\n' || c == '\r'

/-- The number that hexadecimal digits stand for. -/
def hexNumber? (digits : List Char) : Option Nat :=
  digits.foldlM (fun n c => (Text.hexValue? c).map (16 * n + ·)) 0

/-- The character with the number that the digits spell. Surrogates are no characters. -/
def hexChar? (digits : List Char) : Option Char :=
  (hexNumber? digits).bind fun n =>
    if h : n.isValidChar then some (Char.ofNatAux n h) else none

/-- Resolve the escapes of a string. -/
def unescape : List Char → Option (List Char)
  | [] => some []
  | '\\' :: 'b' :: rest => (unescape rest).map ('\x08' :: ·)
  | '\\' :: 't' :: rest => (unescape rest).map ('\t' :: ·)
  | '\\' :: 'n' :: rest => (unescape rest).map ('\n' :: ·)
  | '\\' :: 'f' :: rest => (unescape rest).map ('\x0c' :: ·)
  | '\\' :: 'r' :: rest => (unescape rest).map ('\r' :: ·)
  | '\\' :: '\x22' :: rest => (unescape rest).map ('\x22' :: ·)
  | '\\' :: '\\' :: rest => (unescape rest).map ('\\' :: ·)
  | '\\' :: 'u' :: a :: b :: c :: d :: rest => do
    let x ← hexChar? [a, b, c, d]
    return x :: (← unescape rest)
  | '\\' :: 'U' :: a :: b :: c :: d :: e :: f :: g :: h :: rest => do
    let x ← hexChar? [a, b, c, d, e, f, g, h]
    return x :: (← unescape rest)
  | '\\' :: _ => none
  | c :: rest => (unescape rest).map (c :: ·)

/-- What stands before the closing double quote of a string on one line. -/
def shortBody : Reader (List Char)
  | [] => none
  | '\x22' :: rest => some ([], rest)
  | '\\' :: c :: rest =>
    if isBreak c then none
    else (shortBody rest).map fun (body, rest) => ('\\' :: c :: body, rest)
  | c :: rest =>
    if isBreak c then none else (shortBody rest).map fun (body, rest) => (c :: body, rest)

/-- A string between double quotes on one line, after the opening quote. -/
def basicText : Reader String := fun cs => do
  let (body, rest) ← shortBody cs
  return (String.ofList (← unescape body), rest)

/-- A string between single quotes on one line, after the opening quote. -/
def plainText : Reader String := fun cs =>
  let body := cs.takeWhile fun c => c != '\x27' && !isBreak c
  match cs.drop body.length with
  | '\x27' :: rest => some (String.ofList body, rest)
  | _ => none

/-- Whether three more quotes after what was read would be six in a row. The text read so far stands
in reverse order. Two quotes of which a backslash stands before do not count as a start of the row
when escapes are on. -/
def crowded (quote : Char) (escapes : Bool) : List Char → Bool
  | a :: b :: before => a == quote && b == quote && !(escapes && before.head? == some '\\')
  | _ => false

/-- What stands before three closing quotes. Up to two quotes may stand right before the closing
ones. The text read so far stands in reverse order. -/
def longBody (quote : Char) (escapes : Bool) : List Char → Reader (List Char)
  | _, [] => none
  | seen, c :: rest =>
    if c == '\\' && escapes then
      match rest with
      | [] => none
      | d :: rest => longBody quote escapes (d :: c :: seen) rest
    else if c == quote then
      match rest with
      | a :: b :: after =>
        if a == quote && b == quote then
          if after.head? == some quote then
            if crowded quote escapes seen then none
            else longBody quote escapes (c :: seen) (a :: b :: after)
          else some (seen.reverse, after)
        else longBody quote escapes (c :: seen) (a :: b :: after)
      | rest => longBody quote escapes (c :: seen) rest
    else longBody quote escapes (c :: seen) rest

/-- A text without the line break at its start. -/
def dropFirstBreak : List Char → List Char
  | '\n' :: rest => rest
  | '\r' :: '\n' :: rest => rest
  | cs => cs

/-- Remove each backslash that ends a line, with the blanks and breaks after it. -/
def joinLines (cs : List Char) : List Char :=
  match cs with
  | [] => []
  | '\\' :: '\\' :: rest => '\\' :: '\\' :: joinLines rest
  | '\\' :: rest =>
    let blanks := rest.takeWhile fun c => isGap c || isBreak c
    if blanks.contains '\n' then joinLines (rest.drop blanks.length)
    else '\\' :: joinLines rest
  | c :: rest => c :: joinLines rest
termination_by cs.length
decreasing_by all_goals (simp_wf; try omega)

/-- A string between three double quotes, after the opening quotes. -/
def longBasicText : Reader String := fun cs => do
  let (body, rest) ← longBody '\x22' true [] cs
  return (String.ofList (← unescape (dropFirstBreak (joinLines body))), rest)

/-- A string between three single quotes, after the opening quotes. -/
def longPlainText : Reader String := fun cs => do
  let (body, rest) ← longBody '\x27' false [] cs
  return (String.ofList (dropFirstBreak body), rest)

end CodeEmission.Toml
