import Mathlib.Data.List.TakeWhile
import InboxOne.HttpHeaders

/-!
How HTML text is read: line ends first, then tags, character references and characters.
The named references are a table. A start tag that changes how the text behind it is read
ends the reading, and so does one of an element that is not known here.
-/
namespace HtmlTokens
open HttpHeaders (hexValue)

def nulChar : Char := Char.ofNat 0

def formFeed : Char := Char.ofNat 12

/-- Letters and digits, perhaps with a semicolon behind them. -/
def isReferenceName (name : List Char) : Bool :=
  name.dropLast.all Char.isAlphanum && name.all fun c => c.isAlphanum || c == ';'

/-- The named character references, by what follows the ampersand. -/
structure CharacterNames where
  expand : List Char → Option (List Char)
  spelled : ∀ {name text}, expand name = some text → isReferenceName name = true
  shorter : ∀ {name text}, expand name = some text → text.length ≤ name.length
  amp : expand "amp;".toList = some ['&']
  lt : expand "lt;".toList = some ['<']
  gt : expand "gt;".toList = some ['>']

/-- CRLF and CR are line feeds. -/
def normalise : List Char → List Char
  | [] => []
  | c :: rest =>
      if c = '\r' then
        if rest.head? = some '\n' then normalise rest else '\n' :: normalise rest
      else c :: normalise rest

inductive Token where
  | char (c : Char)
  | start (name inside : List Char)
  | stop (name : List Char)
  | comment
  | unread (text : List Char)
  deriving DecidableEq, Repr

def chars (text : List Char) : List Token := text.map Token.char

/-- What the numbers of the C1 controls stand for. -/
def windowsCharacters : List Nat :=
  [0x20AC, 0x81, 0x201A, 0x192, 0x201E, 0x2026, 0x2020, 0x2021, 0x2C6, 0x2030, 0x160, 0x2039,
    0x152, 0x8D, 0x17D, 0x8F, 0x90, 0x2018, 0x2019, 0x201C, 0x201D, 0x2022, 0x2013, 0x2014, 0x2DC,
    0x2122, 0x161, 0x203A, 0x153, 0x9D, 0x17E, 0x178]

def numberedCharacter (n : Nat) : Char :=
  if n = 0 ∨ 0x10FFFF < n ∨ (0xD800 ≤ n ∧ n ≤ 0xDFFF) then Char.ofNat 0xFFFD
  else if 0x80 ≤ n ∧ n ≤ 0x9F then Char.ofNat (windowsCharacters.getD (n - 0x80) n)
  else Char.ofNat n

def isHexDigit (c : Char) : Bool := (hexValue c).isSome

def numberOf (base : Nat) (digits : List Char) : Nat :=
  digits.foldl (fun n c => base * n + (hexValue c).getD 0) 0

def dropSemicolon (text : List Char) : List Char :=
  if text.head? = some ';' then text.tail else text

/-- The semicolon behind the digits may be missing. -/
def numbered (base : Nat) (isDigit : Char → Bool) (text : List Char) :
    Option (List Char × List Char) :=
  if text.takeWhile isDigit = [] then none
  else some ([numberedCharacter (numberOf base (text.takeWhile isDigit))],
    dropSemicolon (text.dropWhile isDigit))

def numericReference (text : List Char) : Option (List Char × List Char) :=
  if text.head? = some 'x' ∨ text.head? = some 'X' then numbered 16 isHexDigit text.tail
  else numbered 10 Char.isDigit text

section Names
variable (names : CharacterNames)

/-- The longest name among the first n characters. -/
def named (text : List Char) : Nat → Option (List Char × List Char)
  | 0 => none
  | n + 1 =>
      match names.expand (text.take (n + 1)) with
      | some expansion => some (expansion, text.drop (n + 1))
      | none => named text n

/-- What follows an ampersand, when it is a reference. -/
def reference (text : List Char) : Option (List Char × List Char) :=
  if text.head? = some '#' then numericReference text.tail
  else named names text text.length

end Names

def isSpace (c : Char) : Bool := c == ' ' || c == '\t' || c == '\n' || c == formFeed

inductive TagPlace where
  | between
  | name
  | afterName
  | beforeValue
  | double
  | single
  | unquoted
  deriving DecidableEq, Repr

/-- The next place inside a tag; none where the tag is closed. -/
def TagPlace.next : TagPlace → Char → Option TagPlace
  | between, c =>
      if isSpace c || c == '/' then some between else if c = '>' then none else some name
  | name, c =>
      if isSpace c then some afterName else if c = '/' then some between
      else if c = '>' then none else if c = '=' then some beforeValue else some name
  | afterName, c =>
      if isSpace c then some afterName else if c = '/' then some between
      else if c = '>' then none else if c = '=' then some beforeValue else some name
  | beforeValue, c =>
      if isSpace c then some beforeValue else if c = '"' then some double
      else if c = HttpHeaders.apostrophe then some single else if c = '>' then none
      else some unquoted
  | double, c => if c = '"' then some between else some double
  | single, c => if c = HttpHeaders.apostrophe then some between else some single
  | unquoted, c => if isSpace c then some between else if c = '>' then none else some unquoted

/-- The rest of a tag as it is spelled, and the text behind it. -/
def tagRest : TagPlace → List Char → Option (List Char × List Char)
  | _, [] => none
  | place, c :: rest =>
      match place.next c with
      | none => some ([], rest)
      | some next => (tagRest next rest).map fun found => (c :: found.1, found.2)

def isNameChar (c : Char) : Bool := !(isSpace c || c == '/' || c == '>')

def tagName (text : List Char) : List Char := (text.takeWhile isNameChar).map Char.toLower

/-- Elements whose contents are read like the text around them. -/
def ordinaryElements : List String :=
  ["html", "head", "meta", "base", "body", "div", "p", "br", "hr", "strong", "em", "span", "ul",
    "ol", "li", "blockquote", "pre"]

def isOrdinary (name : List Char) : Bool := ordinaryElements.any fun e => e.toList == name

/-- A tag that is not closed is dropped with all that follows. -/
def startTag (text : List Char) : List Token × List Char :=
  match tagRest .between (text.dropWhile isNameChar) with
  | none => ([], [])
  | some (inside, rest) =>
      if isOrdinary (tagName text) then ([.start (tagName text) inside], rest)
      else ([.start (tagName text) inside, .unread rest], [])

def endTag (text : List Char) : List Token × List Char :=
  match tagRest .between (text.dropWhile isNameChar) with
  | none => ([], [])
  | some (_, rest) => ([.stop (tagName text)], rest)

def afterBogus (text : List Char) : List Char := (text.dropWhile (· != '>')).tail

def afterComment : List Char → List Char
  | [] => []
  | c :: rest =>
      if "-->".toList.isPrefixOf (c :: rest) then rest.drop 2
      else if "--!>".toList.isPrefixOf (c :: rest) then rest.drop 3
      else afterComment rest

def declarationRest (text : List Char) : List Char :=
  if "-->".toList.isPrefixOf text then text.drop 3
  else if "--->".toList.isPrefixOf text then text.drop 4
  else if "--".toList.isPrefixOf text then afterComment (text.drop 2)
  else afterBogus text

def closing : List Char → List Token × List Char
  | [] => (chars "</".toList, [])
  | c :: rest =>
      if c.isAlpha then endTag (c :: rest)
      else if c = '>' then ([], rest)
      else ([.comment], afterBogus (c :: rest))

/-- What stands behind a less-than sign. -/
def markup : List Char → List Token × List Char
  | [] => ([.char '<'], [])
  | c :: rest =>
      if c.isAlpha then startTag (c :: rest)
      else if c = '/' then closing rest
      else if c = '!' then ([.comment], declarationRest rest)
      else if c = '?' then ([.comment], afterBogus rest)
      else ([.char '<'], c :: rest)

section Reading
variable (names : CharacterNames)

def ampersand (rest : List Char) : List Token × List Char :=
  match reference names rest with
  | some (expansion, after) => (chars expansion, after)
  | none => ([.char '&'], rest)

/-- What the next character begins, and the text behind it. -/
def item (c : Char) (rest : List Char) : List Token × List Char :=
  if c = '<' then markup rest
  else if c = '&' then ampersand names rest
  else ([.char c], rest)

def tokens : Nat → List Char → List Token
  | fuel + 1, c :: rest => (item names c rest).1 ++ tokens fuel (item names c rest).2
  | _, _ => []

def read (text : List Char) : List Token := tokens names text.length text

end Reading

def opensPre : Token → Bool
  | .start name _ => name == "pre".toList
  | _ => false

/-- What of the tokens gets into the document: no NUL, and no line feed right behind the
    start of a preformatted text. -/
def content : Bool → List Token → List Token
  | _, [] => []
  | fresh, t :: rest =>
      if t = .char nulChar ∨ (fresh = true ∧ t = .char '\n') then content false rest
      else t :: content (opensPre t) rest

def display (names : CharacterNames) (text : List Char) : List Token :=
  content false (read names (normalise text))

end HtmlTokens
