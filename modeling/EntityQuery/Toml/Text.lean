import EntityQuery.Number.Bits

/-! Blanks, comments, strings and keys of TOML documents. -/
namespace EntityQuery.Toml

def isBlank (c : Char) : Bool := c == ' ' || c == '\t'

def skipBlanks (cs : List Char) : List Char := cs.dropWhile isBlank

/-- Of the controls only the tab stands in strings and comments. -/
def isPrintable (c : Char) : Bool := c == '\t' || (32 ≤ c.toNat && c.toNat != 127)

/-- Passes over blanks, line ends and comments; within a comment at the start if `inComment`. -/
def skipLines (inComment : Bool) : List Char → Option (List Char)
  | [] => some []
  | '\r' :: '\n' :: rest => skipLines false rest
  | '\n' :: rest => skipLines false rest
  | c :: rest =>
    if inComment then if isPrintable c then skipLines true rest else none
    else if c == '#' then skipLines true rest
    else if isBlank c then skipLines false rest
    else some (c :: rest)

/-- Whether a line ends here, perhaps with a comment. -/
def atLineEnd : List Char → Bool
  | [] => true
  | '\r' :: '\n' :: _ => true
  | c :: _ => c == '\n' || c == '#'

/-- The character that an escape of hexadecimal digits stands for. -/
def character? (digits : List Char) : Option Char := do
  let n ← Number.ofHexDigits? digits
  if n.isValidChar then some (Char.ofNat n) else none

def unescape? : Char → Option Char
  | '"' => some '"'
  | '\\' => some '\\'
  | 'b' => some '\x08'
  | 'f' => some '\x0c'
  | 'n' => some '\n'
  | 'r' => some '\r'
  | 't' => some '\t'
  | _ => none

def prepend (c : Char) (scanned : Option (List Char × List Char)) :
    Option (List Char × List Char) :=
  scanned.map fun (content, rest) => (c :: content, rest)

/-- A string with escapes on one line, after its opening quote: content and rest. -/
def scanBasic : List Char → Option (List Char × List Char)
  | [] => none
  | '"' :: rest => some ([], rest)
  | '\\' :: 'u' :: a :: b :: c :: d :: rest => do
    prepend (← character? [a, b, c, d]) (scanBasic rest)
  | '\\' :: 'U' :: a :: b :: c :: d :: e :: f :: g :: h :: rest => do
    prepend (← character? [a, b, c, d, e, f, g, h]) (scanBasic rest)
  | '\\' :: c :: rest => do prepend (← unescape? c) (scanBasic rest)
  | c :: rest => if isPrintable c then prepend c (scanBasic rest) else none

/-- A string without escapes on one line, after its opening quote. -/
def scanLiteral : List Char → Option (List Char × List Char)
  | [] => none
  | '\'' :: rest => some ([], rest)
  | c :: rest => if isPrintable c then prepend c (scanLiteral rest) else none

/-- Up to two quotes may stand right before the closing three. -/
def closing (quote : Char) : List Char → List Char × List Char
  | a :: b :: rest =>
    if a == quote && b == quote then ([quote, quote], rest)
    else if a == quote then ([quote], b :: rest)
    else ([], a :: b :: rest)
  | [a] => if a == quote then ([quote], []) else ([], [a])
  | [] => ([], [])

/-- A string with escapes over several lines. After a backslash at the end of a line everything up
to the next visible character is left out, as long as `trimming` holds. -/
def scanBasicLines (trimming : Bool) : List Char → Option (List Char × List Char)
  | [] => none
  | '"' :: '"' :: '"' :: rest => some (closing '"' rest)
  | '\r' :: '\n' :: rest =>
    if trimming then scanBasicLines true rest else prepend '\n' (scanBasicLines false rest)
  | '\n' :: rest =>
    if trimming then scanBasicLines true rest else prepend '\n' (scanBasicLines false rest)
  | '\\' :: 'u' :: a :: b :: c :: d :: rest => do
    prepend (← character? [a, b, c, d]) (scanBasicLines false rest)
  | '\\' :: 'U' :: a :: b :: c :: d :: e :: f :: g :: h :: rest => do
    prepend (← character? [a, b, c, d, e, f, g, h]) (scanBasicLines false rest)
  | '\\' :: c :: rest =>
    if endsLine (c :: rest) then if isBlank c || c == '\n' || c == '\r' then
      scanBasicLines true rest else none
    else do prepend (← unescape? c) (scanBasicLines false rest)
  | c :: rest =>
    if trimming && isBlank c then scanBasicLines true rest
    else if isPrintable c then prepend c (scanBasicLines false rest)
    else none
where
  endsLine (cs : List Char) : Bool :=
    match skipBlanks cs with
    | '\n' :: _ => true
    | '\r' :: '\n' :: _ => true
    | _ => false

/-- A string without escapes over several lines. -/
def scanLiteralLines : List Char → Option (List Char × List Char)
  | [] => none
  | '\'' :: '\'' :: '\'' :: rest => some (closing '\'' rest)
  | '\r' :: '\n' :: rest => prepend '\n' (scanLiteralLines rest)
  | '\n' :: rest => prepend '\n' (scanLiteralLines rest)
  | c :: rest => if isPrintable c then prepend c (scanLiteralLines rest) else none

/-- A line end right after the opening quotes is left out. -/
def skipFirstLineEnd : List Char → List Char
  | '\r' :: '\n' :: rest => rest
  | '\n' :: rest => rest
  | rest => rest

/-- A string of any of the four kinds. -/
def scanString : List Char → Option (String × List Char)
  | '"' :: '"' :: '"' :: rest => text (scanBasicLines false (skipFirstLineEnd rest))
  | '"' :: rest => text (scanBasic rest)
  | '\'' :: '\'' :: '\'' :: rest => text (scanLiteralLines (skipFirstLineEnd rest))
  | '\'' :: rest => text (scanLiteral rest)
  | _ => none
where
  text (scanned : Option (List Char × List Char)) : Option (String × List Char) :=
    scanned.map fun (content, rest) => (String.ofList content, rest)

def isBare (c : Char) : Bool := c.isAlphanum || c == '_' || c == '-'

def scanKey : List Char → Option (String × List Char)
  | '"' :: rest => (scanBasic rest).map fun (key, rest) => (String.ofList key, rest)
  | '\'' :: rest => (scanLiteral rest).map fun (key, rest) => (String.ofList key, rest)
  | cs =>
    match cs.takeWhile isBare with
    | [] => none
    | key => some (String.ofList key, cs.dropWhile isBare)

/-- Keys with points between them, and what follows the blanks after them. -/
def scanPathWithin : Nat → List Char → Option (List String × List Char)
  | 0, _ => none
  | fuel + 1, cs => do
    let (key, rest) ← scanKey (skipBlanks cs)
    match skipBlanks rest with
    | '.' :: rest =>
      let (keys, rest) ← scanPathWithin fuel rest
      some (key :: keys, rest)
    | rest => some ([key], rest)

def scanPath (cs : List Char) : Option (List String × List Char) := scanPathWithin cs.length cs

end EntityQuery.Toml
