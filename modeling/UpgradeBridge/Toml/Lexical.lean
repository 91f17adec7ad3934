/-
The smallest parts of a TOML text: blanks, comments, line ends, strings and
keys.

Comments and strings hold no control characters but tabs. Strings over several
lines have every line end as a line feed.
-/
import UpgradeBridge.Text.Digit
import UpgradeBridge.Text.Reads
import UpgradeBridge.Toml.Value

namespace UpgradeBridge.Toml

/-- A blank or a tab. -/
def isBlank (c : Char) : Bool :=
  c == ' ' || c == '\t'

/-- A character that comments and strings may hold. -/
def isPrintable (c : Char) : Bool :=
  c == '\t' || (c.toNat ≥ 0x20 && c.toNat != 0x7f)

/-- The rest after blanks. -/
def skipBlanks (cs : List Char) : List Char :=
  cs.dropWhile isBlank

/-- The rest after a line end. -/
def newline? : List Char → Option (List Char)
  | '\n' :: rest => some rest
  | '\r' :: '\n' :: rest => some rest
  | _ => none

/-- The rest after blanks, line ends and comments, in a comment or outside one. It starts with a
character that none of these may hold. -/
def skipLines : (inComment : Bool) → List Char → List Char
  | _, [] => []
  | _, '\r' :: rest =>
    match rest with
    | '\n' :: rest => skipLines false rest
    | rest => '\r' :: rest
  | inComment, c :: rest =>
    if inComment && isPrintable c then skipLines true rest
    else if isBlank c || c == '\n' then skipLines false rest
    else if c == '#' then skipLines true rest
    else c :: rest

/-- The rest after what may end a line: blanks, a comment, and a line end or the end of the text. -/
def endOfLine? (cs : List Char) : Option (List Char) :=
  let cs := match skipBlanks cs with
    | '#' :: rest => rest.dropWhile isPrintable
    | cs => cs
  match cs with
  | [] => some []
  | cs => newline? cs

/-- The character whose code point some hexadecimal digits give. -/
def codePoint? (digits : List Char) : Option Char := do
  let code := ofDigits 16 (← digits.mapM (digit? 16))
  if h : code.isValidChar then some (Char.ofNatAux code h) else none

/-- The character that a backslash and one more character stand for. -/
def escape? : Char → Option Char
  | 'b' => some '\x08'
  | 't' => some '\t'
  | 'n' => some '\n'
  | 'f' => some '\x0c'
  | 'r' => some '\r'
  | '"' => some '"'
  | '\\' => some '\\'
  | _ => none

/-- Puts a character in front of the text that was read. -/
def consume (c : Char) (read : Option (List Char × List Char)) : Option (List Char × List Char) :=
  read.map fun r => (c :: r.1, r.2)

/-- Reads a string on one line up to its quotation mark. -/
def basic : Reads (List Char)
  | [] => none
  | '\\' :: 'u' :: a :: b :: c :: d :: rest => do
    consume (← codePoint? [a, b, c, d]) (basic rest)
  | '\\' :: 'U' :: a :: b :: c :: d :: e :: f :: g :: h :: rest => do
    consume (← codePoint? [a, b, c, d, e, f, g, h]) (basic rest)
  | '\\' :: c :: rest => do consume (← escape? c) (basic rest)
  | '"' :: rest => some ([], rest)
  | c :: rest => if c != '\\' && isPrintable c then consume c (basic rest) else none

/-- Reads a string without escapes on one line up to its apostrophe. -/
def literal : Reads (List Char)
  | [] => none
  | '\'' :: rest => some ([], rest)
  | c :: rest => if isPrintable c then consume c (literal rest) else none

/-- What is being read of a string over several lines. -/
inductive Lines
  | text
  /-- A backslash at the end of a line, up to the line end. -/
  | ending
  /-- The blanks and line ends that such a backslash takes along. -/
  | joining
  deriving DecidableEq, Repr

/-- The end of a string over several lines: three marks, and before them up to two that belong to
the text. The marks after the first three are given. -/
def closing (mark : Char) : List Char → List Char × List Char
  | a :: b :: rest =>
    if a == mark && b == mark then ([mark, mark], rest)
    else if a == mark then ([mark], b :: rest)
    else ([], a :: b :: rest)
  | [a] => if a == mark then ([mark], []) else ([], [a])
  | [] => ([], [])

/-- Reads a string over several lines up to its quotation marks. -/
def basicLines : Lines → Reads (List Char)
  | _, [] => none
  | .ending, c :: rest =>
    if isBlank c then basicLines .ending rest
    else if c == '\n' then basicLines .joining rest
    else if c == '\r' then
      match rest with
      | '\n' :: rest => basicLines .joining rest
      | _ => none
    else none
  | mode, '\r' :: '\n' :: rest =>
    if mode == .joining then basicLines .joining rest else consume '\n' (basicLines .text rest)
  | mode, '\n' :: rest =>
    if mode == .joining then basicLines .joining rest else consume '\n' (basicLines .text rest)
  | _, '\\' :: 'u' :: a :: b :: c :: d :: rest => do
    consume (← codePoint? [a, b, c, d]) (basicLines .text rest)
  | _, '\\' :: 'U' :: a :: b :: c :: d :: e :: f :: g :: h :: rest => do
    consume (← codePoint? [a, b, c, d, e, f, g, h]) (basicLines .text rest)
  | _, '\\' :: c :: rest =>
    if isBlank c then basicLines .ending rest
    else if c == '\n' then basicLines .joining rest
    else if c == '\r' then
      match rest with
      | '\n' :: rest => basicLines .joining rest
      | _ => none
    else do consume (← escape? c) (basicLines .text rest)
  | _, '"' :: '"' :: '"' :: rest => some (closing '"' rest)
  | mode, c :: rest =>
    if mode == .joining && isBlank c then basicLines .joining rest
    else if c != '\\' && isPrintable c then consume c (basicLines .text rest)
    else none

/-- Reads a string without escapes over several lines up to its apostrophes. -/
def literalLines : Reads (List Char)
  | [] => none
  | '\'' :: '\'' :: '\'' :: rest => some (closing '\'' rest)
  | '\r' :: '\n' :: rest => consume '\n' (literalLines rest)
  | c :: rest => if c == '\n' || isPrintable c then consume c (literalLines rest) else none

/-- The rest after a line end that follows the marks at the front of a string. -/
def skipNewline (cs : List Char) : List Char :=
  (newline? cs).getD cs

/-- Reads a string. -/
def string : Reads String := fun cs =>
  let body := match cs with
    | '"' :: '"' :: '"' :: rest => basicLines .text (skipNewline rest)
    | '\'' :: '\'' :: '\'' :: rest => literalLines (skipNewline rest)
    | '"' :: rest => basic rest
    | '\'' :: rest => literal rest
    | _ => none
  body.map fun r => (String.ofList r.1, r.2)

/-- A character of a key without quotation marks. -/
def isKeyChar (c : Char) : Bool :=
  c.isAlphanum || c == '_' || c == '-'

/-- Reads one part of a key. -/
def simpleKey : Reads String
  | '"' :: rest => (basic rest).map fun r => (String.ofList r.1, r.2)
  | '\'' :: rest => (literal rest).map fun r => (String.ofList r.1, r.2)
  | cs =>
    let name := cs.takeWhile isKeyChar
    if name.isEmpty then none else some (String.ofList name, cs.dropWhile isKeyChar)

/-- Reads the parts of a key, with points between them and blanks around them. -/
def keyParts : (fuel : Nat) → Reads (List String)
  | 0, _ => none
  | fuel + 1, cs => do
    let (name, cs) ← simpleKey (skipBlanks cs)
    match skipBlanks cs with
    | '.' :: rest =>
      let (names, rest) ← keyParts fuel rest
      some (name :: names, rest)
    | rest => some ([name], rest)

/-- The limit that the parts of a key and the nesting of a value stay below. -/
def limit : Nat := 80

/-- Reads a key. -/
def key : Reads Key := fun cs => do
  let (parts, rest) ← keyParts (cs.length + 1) cs
  let name ← parts.getLast?
  if parts.length < limit then some (⟨parts.dropLast, name⟩, rest) else none

end UpgradeBridge.Toml
