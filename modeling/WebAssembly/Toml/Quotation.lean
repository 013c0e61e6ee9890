import WebAssembly.Toml.Number

/-!
# Strings of documents

A string stands between double quotes, and then a backslash begins an escape, or between
single quotes, and then every character stands for itself.  Between three quotes a
string may span lines.

Each reader starts behind the opening quotes and gives the text and what follows the
closing quotes.
-/

namespace WebAssembly
namespace Toml

def isNewline (c : Char) : Bool := c = '\n' || c = '\r'

/-- Whether a character is a blank within a line. -/
def isBlank (c : Char) : Bool := c = ' ' || c = '\t'

/-- What a reader of escapes waits for. -/
inductive EscapeMode
  /-- Nothing: the next character stands for itself. -/
  | plain
  /-- The character behind a backslash. -/
  | escaped
  /-- Some more digits of a code point. -/
  | digits (count value : Nat)
  /-- The end of the blanks behind a backslash, among which a newline has to be. -/
  | folding (newline : Bool)
  deriving DecidableEq, Repr, Inhabited

def escapeChar? (c : Char) : Option Char :=
  if c = 'b' then some '\x08'
  else if c = 't' then some '\t'
  else if c = 'n' then some '\n'
  else if c = 'f' then some '\x0c'
  else if c = 'r' then some '\r'
  else if c = 'e' then some '\x1b'
  else if c = '"' then some '"'
  else if c = '\\' then some '\\'
  else none

/-- The number of digits of an escape that gives a code point. -/
def escapeDigits? (c : Char) : Option Nat :=
  if c = 'x' then some 2
  else if c = 'u' then some 4
  else if c = 'U' then some 8
  else none

def charOf? (n : Nat) : Option Char :=
  if n.isValidChar then some (Char.ofNat n) else none

/-- One more digit of a code point: the character when it is the last digit. -/
def nextDigit? (count value : Nat) (c : Char) : Option (Nat ⊕ Char) :=
  if isHexDigit c then
    let value := 16 * value + digitValue c
    if count ≤ 1 then (charOf? value).map .inr else some (.inl value)
  else none

/-- Reads a string between double quotes; `text` holds what was read, last first. -/
def basicFrom (mode : EscapeMode) (text : List Char) :
    List Char → Option (String × List Char)
  | [] => none
  | c :: rest =>
    match mode with
    | .escaped =>
      match escapeChar? c, escapeDigits? c with
      | some e, _ => basicFrom .plain (e :: text) rest
      | none, some count => basicFrom (.digits count 0) text rest
      | none, none => none
    | .digits count value =>
      match nextDigit? count value c with
      | some (.inl value) => basicFrom (.digits (count - 1) value) text rest
      | some (.inr e) => basicFrom .plain (e :: text) rest
      | none => none
    | .plain | .folding _ =>
      if c = '"' then some (String.ofList text.reverse, rest)
      else if c = '\\' then basicFrom .escaped text rest
      else if isNewline c then none
      else basicFrom .plain (c :: text) rest

/-- Reads a string between double quotes. -/
def basic (chars : List Char) : Option (String × List Char) :=
  basicFrom .plain [] chars

/-- Reads a string between single quotes. -/
def literal (chars : List Char) : Option (String × List Char) :=
  match chars.span (fun c => c ≠ '\'' && !isNewline c) with
  | (text, '\'' :: rest) => some (String.ofList text, rest)
  | _ => none

/-- The text behind three opening quotes, without a newline right behind them. -/
def withoutFirstNewline : List Char → List Char
  | '\n' :: rest => rest
  | '\r' :: '\n' :: rest => rest
  | chars => chars

/-- What three closing quotes may be preceded by: the quotes right before, and whether a
backslash is in front of them. -/
structure QuoteRun where
  count : Nat := 0
  backslash : Bool := false
  deriving DecidableEq, Repr, Inhabited

namespace QuoteRun

def next (run : QuoteRun) : QuoteRun :=
  { run with count := run.count + 1 }

/-- Whether a fourth quote behind three more is one too many: at most two quotes may
stand before the closing ones, not counting one behind a backslash. -/
def isFull (run : QuoteRun) : Bool :=
  run.count + 3 ≥ 5 && !(run.count + 3 = 5 && run.backslash)

end QuoteRun

/-- What three quotes at the front mean: the end of a string with the text behind it, a
quote that belongs to the string, or a mistake. -/
inductive QuoteSense
  | closing (rest : List Char)
  | content
  | mistake
  deriving DecidableEq, Repr, Inhabited

def quoteSense (quote : Char) (run : QuoteRun) : List Char → QuoteSense
  | a :: b :: rest =>
    if a = quote && b = quote then
      if rest.head? = some quote then
        (if run.isFull then .mistake else .content)
      else .closing rest
    else .content
  | _ => .content

/-- What one character of a string between three double quotes leads to. -/
inductive LongStep
  /-- The string goes on; the characters that were read come last first. -/
  | next (mode : EscapeMode) (run : QuoteRun) (text : List Char)
  /-- The string ends, with the text behind it. -/
  | closing (rest : List Char)
  | mistake
  deriving DecidableEq, Repr, Inhabited

def plainStep (run : QuoteRun) (text : List Char) (c : Char)
    (rest : List Char) : LongStep :=
  if c = '"' then
    match quoteSense '"' run rest with
    | .closing rest => .closing rest
    | .content => .next .plain run.next (c :: text)
    | .mistake => .mistake
  else if c = '\\' then .next .escaped { backslash := true } text
  else .next .plain {} (c :: text)

def escapedStep (text : List Char) (c : Char) : LongStep :=
  if isBlank c || isNewline c then .next (.folding (c = '\n')) {} text
  else
    match escapeChar? c, escapeDigits? c with
    | some e, _ =>
      let run : QuoteRun :=
        if c = '"' then { count := 1, backslash := true } else { backslash := c = '\\' }
      .next .plain run (e :: text)
    | none, some count => .next (.digits count 0) {} text
    | none, none => .mistake

def longStep (mode : EscapeMode) (run : QuoteRun) (text : List Char) (c : Char)
    (rest : List Char) : LongStep :=
  match mode with
  | .plain => plainStep run text c rest
  | .escaped => escapedStep text c
  | .digits count value =>
    match nextDigit? count value c with
    | some (.inl value) => .next (.digits (count - 1) value) {} text
    | some (.inr e) => .next .plain {} (e :: text)
    | none => .mistake
  | .folding newline =>
    if isBlank c || isNewline c then .next (.folding (newline || c = '\n')) {} text
    else if newline then plainStep run text c rest
    else .mistake

/-- Reads a string between three double quotes, step by step. -/
def longBasicFrom (mode : EscapeMode) (run : QuoteRun) (text : List Char) :
    List Char → Option (String × List Char)
  | [] => none
  | c :: rest =>
    match longStep mode run text c rest with
    | .next mode run text => longBasicFrom mode run text rest
    | .closing rest => some (String.ofList text.reverse, rest)
    | .mistake => none

/-- Reads a string between three double quotes. -/
def longBasic (chars : List Char) : Option (String × List Char) :=
  longBasicFrom .plain {} [] (withoutFirstNewline chars)

/-- Reads a string between three single quotes; `text` holds what was read, last
first. -/
def longLiteralFrom (run : QuoteRun) (text : List Char) :
    List Char → Option (String × List Char)
  | [] => none
  | c :: rest =>
    if c = '\'' then
      match quoteSense '\'' run rest with
      | .closing rest => some (String.ofList text.reverse, rest)
      | .content => longLiteralFrom run.next (c :: text) rest
      | .mistake => none
    else longLiteralFrom {} (c :: text) rest

/-- Reads a string between three single quotes. -/
def longLiteral (chars : List Char) : Option (String × List Char) :=
  longLiteralFrom {} [] (withoutFirstNewline chars)

end Toml
end WebAssembly
