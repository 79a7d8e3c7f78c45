import EntityQuery.Text.Blank

/-! Splitting query text into words, parameters, numbers, strings and marks. Two minus signs
start a comment that ends with the line. -/
namespace EntityQuery.Grammar

/-- A string holds its content: a quote inside it is written twice. -/
inductive Lexeme where
  | word (text : String)
  | parameter (name : String)
  | number (text : String)
  | string (content : String)
  | mark (text : String)
deriving Repr, DecidableEq

/-- Letters beyond ASCII may be part of words. -/
def isWordStart (c : Char) : Bool := c.isAlpha || c == '_' || c == '#' || c == '@' || 128 ≤ c.toNat

def isWordPart (c : Char) : Bool := isWordStart c || c.isDigit || c == '$'

/-- The content of a string and what follows it, after the opening quote. -/
def scanString : List Char → Option (List Char × List Char)
  | [] => none
  | '\'' :: '\'' :: rest => (scanString rest).map fun (s, rest) => ('\'' :: s, rest)
  | '\'' :: rest => some ([], rest)
  | c :: rest => (scanString rest).map fun (s, rest) => (c :: s, rest)

/-- A point with the digits after it. -/
def scanFraction : List Char → List Char × List Char
  | '.' :: rest => ('.' :: rest.takeWhile Char.isDigit, rest.dropWhile Char.isDigit)
  | rest => ([], rest)

/-- An exponent needs a digit. -/
def scanExponent (cs : List Char) : List Char × List Char :=
  match cs with
  | e :: sign :: d :: rest =>
    if (e == 'e' || e == 'E') && (sign == '+' || sign == '-') && d.isDigit then
      (e :: sign :: d :: rest.takeWhile Char.isDigit, rest.dropWhile Char.isDigit)
    else if (e == 'e' || e == 'E') && sign.isDigit then
      (e :: (sign :: d :: rest).takeWhile Char.isDigit, (sign :: d :: rest).dropWhile Char.isDigit)
    else ([], cs)
  | [e, d] => if (e == 'e' || e == 'E') && d.isDigit then (cs, []) else ([], cs)
  | _ => ([], cs)

def scanNumber (cs : List Char) : List Char × List Char :=
  let whole := cs.takeWhile Char.isDigit
  let (fraction, rest) := scanFraction (cs.dropWhile Char.isDigit)
  let (exponent, rest) := scanExponent rest
  (whole ++ fraction ++ exponent, rest)

/-- Marks of two characters, which are looked for first. -/
def doubleMarks : List (List Char) :=
  [['<', '='], ['>', '='], ['<', '>'], ['!', '='], ['=', '='], ['|', '|']]

def singleMarks : List Char := ['(', ')', ',', '.', '+', '-', '*', '/', '%', '<', '>', '=', ';']

def scanMark : List Char → Option (Lexeme × List Char)
  | c :: d :: rest =>
    if doubleMarks.contains [c, d] then some (.mark (String.ofList [c, d]), rest)
    else if singleMarks.contains c then some (.mark (String.ofList [c]), d :: rest)
    else none
  | [c] => if singleMarks.contains c then some (.mark (String.ofList [c]), []) else none
  | [] => none

/-- The first lexeme of a text that starts with none of a blank and a comment. -/
def scan : List Char → Option (Lexeme × List Char)
  | [] => none
  | '\'' :: rest => (scanString rest).map fun (s, rest) => (.string (String.ofList s), rest)
  | ':' :: c :: rest =>
    if isWordStart c then
      some (.parameter (String.ofList (c :: rest.takeWhile isWordPart)), rest.dropWhile isWordPart)
    else if c == ':' then none
    else some (.mark ":", c :: rest)
  | c :: rest =>
    if isWordStart c then
      some (.word (String.ofList (c :: rest.takeWhile isWordPart)), rest.dropWhile isWordPart)
    else if c.isDigit then
      let (number, rest) := scanNumber (c :: rest)
      some (.number (String.ofList number), rest)
    else scanMark (c :: rest)

/-- Every step takes a character at least. -/
def lexFrom : Nat → List Char → Option (List Lexeme)
  | _, [] => some []
  | 0, _ => none
  | fuel + 1, '-' :: '-' :: rest => lexFrom fuel (rest.dropWhile (· != '\n'))
  | fuel + 1, c :: rest =>
    if Text.isBlank c then lexFrom fuel rest
    else do
      let (lexeme, rest) ← scan (c :: rest)
      some (lexeme :: (← lexFrom fuel rest))

def lex (text : String) : Option (List Lexeme) := lexFrom text.length text.toList

end EntityQuery.Grammar
