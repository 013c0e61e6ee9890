import WebAssembly.Toml.Key
import WebAssembly.Toml.Quotation
import WebAssembly.Toml.Time

/-!
# Statements of documents

A document is a list of statements: a header opens a table, and an assignment gives a
value to a key in the table that is open.  Reading turns text into statements and says
nothing about how they fit together.
-/

namespace WebAssembly
namespace Toml

/-- A value without parts. -/
inductive Scalar
  | string (text : String)
  | integer (n : Int)
  | boolean (b : Bool)
  /-- A float, as it is written. -/
  | float (text : String)
  /-- A date, a time of day, or both, as it is written. -/
  | time (text : String)
  deriving DecidableEq, Repr, Inhabited

mutual

/-- A value as it is written. -/
inductive Literal
  | scalar (value : Scalar)
  | array (items : List Literal)
  | table (pairs : List Pair)

/-- A key with its value. -/
inductive Pair
  | mk (key : Key) (value : Literal)

end

instance : Inhabited Literal := ⟨.array []⟩
instance : Inhabited Pair := ⟨.mk [] default⟩

/-- A line of a document. -/
inductive Statement
  /-- Opens a table. -/
  | table (key : Key)
  /-- Adds a table to an array of tables and opens it. -/
  | element (key : Key)
  /-- Gives a value to a key of the open table. -/
  | assign (key : Key) (value : Literal)
  deriving Inhabited

def skipBlanks (chars : List Char) : List Char :=
  chars.dropWhile isBlank

/-- Leaves out blanks, newlines and comments; `comment` tells whether a comment is
open. -/
def skipSpace (comment : Bool) : List Char → List Char
  | [] => []
  | c :: rest =>
    if c = '\n' then skipSpace false rest
    else if comment || isBlank c || isNewline c then skipSpace comment rest
    else if c = '#' then skipSpace true rest
    else c :: rest

def name : List Char → Option (String × List Char)
  | '"' :: rest => basic rest
  | '\'' :: rest => literal rest
  | chars =>
    match chars.span isBareChar with
    | ([], _) => none
    | (text, rest) => some (String.ofList text, rest)

/-- Reads a key of at most `bound` names and the blanks behind it. -/
def key : Nat → List Char → Option (Key × List Char)
  | 0, _ => none
  | bound + 1, chars => do
    let (first, rest) ← name (skipBlanks chars)
    match skipBlanks rest with
    | '.' :: rest =>
      let (more, rest) ← key bound rest
      pure (first :: more, rest)
    | rest => pure ([first], rest)

/-- Reads a float, of which `front` was read and the mark of a point or an exponent
comes next. -/
def floatFrom (front chars : List Char) : Option (Scalar × List Char) :=
  let (back, rest) := chars.span fun c =>
    c.isDigit || c = '_' || c = '.' || c = '-' || c = '+' || c = 'e' || c = 'E'
  if isFloat (front ++ back) then some (.float (String.ofList (front ++ back)), rest)
  else none

/-- Reads a decimal number, of which `front` was read. -/
def decimalFrom (front chars : List Char) : Option (Scalar × List Char) :=
  let (digits, rest) := chars.span fun c => c.isDigit || c = '_'
  let front := front ++ digits
  if rest.head?.any fun c => c = '.' || c = 'e' || c = 'E' then floatFrom front rest
  else (integer? front).map fun n => (.integer n, rest)

def time (chars : List Char) : Option (Scalar × List Char) :=
  let (text, rest) := chars.span fun c =>
    c.isDigit || c = '-' || c = ':' || c = 'T' || c = 't' || c = ' ' || c = '.' ||
      c = 'Z' || c = 'z'
      || c = '+'
  let text := (text.reverse.dropWhile (· = ' ')).reverse
  if isTime text then some (.time (String.ofList text), rest) else none

/-- Reads the digits of a number behind the mark of its base. -/
def basedFrom (mark : Char) (isDigitOf : Char → Bool) (chars : List Char) :
    Option (Scalar × List Char) :=
  let (digits, rest) := chars.span fun c => isDigitOf c || c = '_'
  if chars.head?.any isDigitOf then
    (integer? ('0' :: mark :: digits)).map fun n => (.integer n, rest)
  else none

def floatWord (front : List Char) : List Char → Option (Scalar × List Char)
  | 'i' :: 'n' :: 'f' :: rest =>
    some (.float (String.ofList (front ++ ['i', 'n', 'f'])), rest)
  | 'n' :: 'a' :: 'n' :: rest =>
    some (.float (String.ofList (front ++ ['n', 'a', 'n'])), rest)
  | _ => none

/-- Reads a number with a sign, which was read. -/
def signed (sign : Char) : List Char → Option (Scalar × List Char)
  | c :: rest =>
    if c.isDigit then
      if c = '0' && rest.head?.any fun c => c = 'b' || c = 'o' || c = 'x' then none
      else decimalFrom [sign] (c :: rest)
    else floatWord [sign] (c :: rest)
  | [] => none

/-- Reads a number without a sign, or a time. -/
def unsigned : List Char → Option (Scalar × List Char)
  | '0' :: 'b' :: rest => basedFrom 'b' (fun c => c = '0' || c = '1') rest
  | '0' :: 'o' :: rest => basedFrom 'o' (fun c => '0' ≤ c && c ≤ '7') rest
  | '0' :: 'x' :: rest => basedFrom 'x' isHexDigit rest
  | chars =>
    if (chars.dropWhile Char.isDigit).head?.any fun c => c = '-' || c = ':' then
      time chars
    else decimalFrom [] chars

def scalar : List Char → Option (Scalar × List Char)
  | '"' :: '"' :: '"' :: rest =>
    (longBasic rest).map fun (text, rest) => (.string text, rest)
  | '"' :: rest => (basic rest).map fun (text, rest) => (.string text, rest)
  | '\'' :: '\'' :: '\'' :: rest =>
    (longLiteral rest).map fun (text, rest) => (.string text, rest)
  | '\'' :: rest => (literal rest).map fun (text, rest) => (.string text, rest)
  | 't' :: 'r' :: 'u' :: 'e' :: rest => some (.boolean true, rest)
  | 'f' :: 'a' :: 'l' :: 's' :: 'e' :: rest => some (.boolean false, rest)
  | '+' :: rest => signed '+' rest
  | '-' :: rest => signed '-' rest
  | c :: rest => if c.isDigit then unsigned (c :: rest) else floatWord [] (c :: rest)
  | [] => none

mutual

def value (bound : Nat) (chars : List Char) : Option (Literal × List Char) :=
  match bound with
  | 0 => none
  | bound + 1 =>
    match chars with
    | '[' :: rest =>
      (items bound (skipSpace false rest)).map fun (items, rest) => (.array items, rest)
    | '\x7b' :: rest =>
      (pairs bound (skipSpace false rest)).map fun (pairs, rest) => (.table pairs, rest)
    | chars => (scalar chars).map fun (value, rest) => (.scalar value, rest)
termination_by structural bound

/-- Reads the items of an array and its closing bracket. -/
def items (bound : Nat) (chars : List Char) : Option (List Literal × List Char) :=
  match bound with
  | 0 => none
  | bound + 1 =>
    match chars with
    | ']' :: rest => some ([], rest)
    | chars => do
      let (first, rest) ← value bound chars
      match skipSpace false rest with
      | ',' :: rest =>
        let (more, rest) ← items bound (skipSpace false rest)
        pure (first :: more, rest)
      | ']' :: rest => pure ([first], rest)
      | _ => none
termination_by structural bound

/-- Reads the pairs of an inline table and its closing brace. -/
def pairs (bound : Nat) (chars : List Char) : Option (List Pair × List Char) :=
  match bound with
  | 0 => none
  | bound + 1 =>
    match chars with
    | '\x7d' :: rest => some ([], rest)
    | chars => do
      let (key, rest) ← key bound chars
      let (first, rest) ← value bound (skipBlanks (← literally '=' rest))
      match skipSpace false rest with
      | ',' :: rest =>
        let (more, rest) ← pairs bound (skipSpace false rest)
        pure (.mk key first :: more, rest)
      | '\x7d' :: rest => pure ([.mk key first], rest)
      | _ => none
termination_by structural bound

end

/-- Reads one statement, whose key has at most `bound` names and whose value has at most
so many parts. -/
def statement (bound : Nat) : List Char → Option (Statement × List Char)
  | '[' :: '[' :: rest => do
    let (key, rest) ← key bound rest
    pure (.element key, ← literally ']' (← literally ']' rest))
  | '[' :: rest => do
    let (key, rest) ← key bound rest
    pure (.table key, ← literally ']' rest)
  | chars => do
    let (key, rest) ← key bound chars
    let (value, rest) ← value bound (skipBlanks (← literally '=' rest))
    pure (.assign key value, rest)

/-- Whether a line ends here, apart from blanks and a comment. -/
def endsLine (chars : List Char) : Bool :=
  match skipBlanks chars with
  | [] => true
  | c :: _ => c = '#' || isNewline c

/-- Reads at most `count` statements, each of which ends its line. -/
def statementsWithin (bound : Nat) : Nat → List Char → Option (List Statement)
  | 0, _ => none
  | count + 1, chars =>
    match skipSpace false chars with
    | [] => some []
    | chars => do
      let (first, rest) ← statement bound chars
      if endsLine rest then pure (first :: (← statementsWithin bound count rest))
      else none

/-- Whether text holds no control characters but tabs and newlines, and no carriage
return apart from a newline. -/
def isClean : List Char → Bool
  | [] => true
  | '\r' :: rest => rest.head? = some '\n' && isClean rest
  | c :: rest =>
    (c = '\t' || c = '\n' || 0x20 ≤ c.toNat && c.toNat ≠ 0x7f) && isClean rest

/-- The text without a byte order mark. -/
def withoutMark : List Char → List Char
  | '\ufeff' :: rest => rest
  | chars => chars

/-- The statements of a document.  A value has at most two parts for each character, and
a key or a document one. -/
def statements (text : String) : Option (List Statement) :=
  let chars := withoutMark text.toList
  if isClean chars then statementsWithin (2 * chars.length + 2) (chars.length + 1) chars
  else none

end Toml
end WebAssembly
