import Bifurcation.Lib.Utf8

/-!
# JSON

Documents as trees, with a reader and a printer that follow Go's `encoding/json`. The reader
takes any JSON text with white space, escapes and repeated members; the printer writes the
compact form with the characters `<`, `>`, `&`, U+2028 and U+2029 escaped. Numbers keep their
text. The reader gives back what the printer wrote (`parse_print`), up to its limit on the nesting.

An object read into a map keeps the last of several members of one name and has no order;
`normalize` is that reading, with the members sorted by name as the printer sorts a map.
-/

namespace Bifurcation

inductive Json where
  | null
  | bool (b : Bool)
  | num (literal : String)
  | str (s : String)
  | arr (items : List Json)
  | obj (members : List (String × Json))
deriving Inhabited

namespace Json

/-! ## Strings -/

def hexDigit (n : ℕ) : Char := if n < 10 then Char.ofNat (48 + n) else Char.ofNat (87 + n)

/-- The four digits of a `\u` escape. -/
def hex4 (n : ℕ) : List Char :=
  [hexDigit (n / 4096 % 16), hexDigit (n / 256 % 16), hexDigit (n / 16 % 16), hexDigit (n % 16)]

def hexValue (c : Char) : Option ℕ :=
  if '0' ≤ c ∧ c ≤ '9' then some (c.toNat - 48)
  else if 'a' ≤ c ∧ c ≤ 'f' then some (c.toNat - 87)
  else if 'A' ≤ c ∧ c ≤ 'F' then some (c.toNat - 55)
  else none

/-- The characters the printer writes as `\u` escapes. -/
def escaped (c : Char) : Bool :=
  c.toNat < 0x20 || c = '<' || c = '>' || c = '&' || c.toNat = 0x2028 || c.toNat = 0x2029

/-- The short escapes, both ways. -/
def shortEscapes : List (Char × Char) :=
  [('"', '"'), ('\\', '\\'), ('\x08', 'b'), ('\x0c', 'f'), ('\n', 'n'), ('\r', 'r'), ('\t', 't')]

def printChar (c : Char) : List Char :=
  match shortEscapes.find? (·.1 = c) with
  | some (_, e) => ['\\', e]
  | none => if escaped c then '\\' :: 'u' :: hex4 c.toNat else [c]

def printString (s : String) : List Char := '"' :: (s.toList.flatMap printChar ++ ['"'])

/-- A part of a string literal: a character, or the number of a `\u` escape. -/
inductive Piece where
  | char (c : Char)
  | unit (n : ℕ)

/-- The number of a `\u` escape. -/
def hexUnit (h₁ h₂ h₃ h₄ : Char) : Option ℕ :=
  match hexValue h₁, hexValue h₂, hexValue h₃, hexValue h₄ with
  | some d₁, some d₂, some d₃, some d₄ => some (((d₁ * 16 + d₂) * 16 + d₃) * 16 + d₄)
  | _, _, _, _ => none

/-- The character a short escape stands for. -/
def unescape (e : Char) : Option Char :=
  if e = '/' then some '/' else (shortEscapes.find? (·.2 = e)).map Prod.fst

/-- Put a part in front of what was read after it. -/
def consPiece (p : Option Piece) (rest : Option (List Piece × List Char)) :
    Option (List Piece × List Char) :=
  match p, rest with
  | some p, some (ps, s) => some (p :: ps, s)
  | _, _ => none

/-- The parts of a string literal after its opening quote, and the text after its closing one. -/
def parsePieces : List Char → Option (List Piece × List Char)
  | [] => none
  | '"' :: s => some ([], s)
  | '\\' :: 'u' :: h₁ :: h₂ :: h₃ :: h₄ :: s =>
    consPiece ((hexUnit h₁ h₂ h₃ h₄).map .unit) (parsePieces s)
  | '\\' :: e :: s => consPiece ((unescape e).map .char) (parsePieces s)
  | c :: s => consPiece (if c.toNat < 0x20 ∨ c = '\\' then none else some (.char c)) (parsePieces s)

def isSurrogate (n : ℕ) : Bool := 0xD800 ≤ n && n < 0xE000

/-- The character a surrogate pair stands for. -/
def decodePair (high low : ℕ) : Option Char :=
  if 0xD800 ≤ high ∧ high < 0xDC00 ∧ 0xDC00 ≤ low ∧ low < 0xE000 then
    some (Char.ofNat (0x10000 + (high - 0xD800) * 0x400 + (low - 0xDC00)))
  else none

/-- Put the parts together: surrogate pairs become one character, other surrogates U+FFFD. -/
def joinPieces : List Piece → List Char
  | [] => []
  | .char c :: ps => c :: joinPieces ps
  | .unit n :: ps =>
    if isSurrogate n then
      match ps with
      | .unit m :: rest =>
        match decodePair n m with
        | some c => c :: joinPieces rest
        | none => '\uFFFD' :: joinPieces (.unit m :: rest)
      | ps => '\uFFFD' :: joinPieces ps
    else Char.ofNat n :: joinPieces ps

def parseString (s : List Char) : Option (String × List Char) :=
  (parsePieces s).map fun p => (String.ofList (joinPieces p.1), p.2)

/-! ## Numbers -/

def isNumChar (c : Char) : Bool :=
  c.isDigit || c = '-' || c = '+' || c = '.' || c = 'e' || c = 'E'

def digits1 : List Char → Bool
  | [] => false
  | c :: s => c.isDigit && s.all Char.isDigit

def validExponent : List Char → Bool
  | [] => true
  | e :: s => (e = 'e' || e = 'E') &&
      match s with
      | '+' :: s => digits1 s
      | '-' :: s => digits1 s
      | s => digits1 s

def validFraction : List Char → Bool
  | '.' :: c :: s => c.isDigit && validExponent (s.dropWhile Char.isDigit)
  | s => validExponent s

def validUnsigned : List Char → Bool
  | [] => false
  | '0' :: s => validFraction s
  | c :: s => c.isDigit && validFraction (s.dropWhile Char.isDigit)

/-- The number literals of JSON. -/
def validNumber : List Char → Bool
  | '-' :: s => validUnsigned s
  | s => validUnsigned s

/-! ## Values -/

def isSpace (c : Char) : Bool := c = ' ' || c = '\t' || c = '\r' || c = '\n'

def skipSpace (s : List Char) : List Char := s.dropWhile isSpace

/-- The text after a fixed word. -/
def expect (word : List Char) (s : List Char) : Option (List Char) :=
  if word.isPrefixOf s then some (s.drop word.length) else none

mutual

/-- Read one value. The fuel bounds the nesting and the lengths. -/
def parseValue : ℕ → List Char → Option (Json × List Char)
  | 0, _ => none
  | n + 1, s =>
    match skipSpace s with
    | [] => none
    | c :: s =>
      if c = '{' then
        match skipSpace s with
        | '}' :: s => some (.obj [], s)
        | s => (parseMembers n s).map fun p => (.obj p.1, p.2)
      else if c = '[' then
        match skipSpace s with
        | ']' :: s => some (.arr [], s)
        | s => (parseItems n s).map fun p => (.arr p.1, p.2)
      else if c = '"' then (parseString s).map fun p => (.str p.1, p.2)
      else if c = 't' then (expect ['r', 'u', 'e'] s).map fun s => (.bool true, s)
      else if c = 'f' then (expect ['a', 'l', 's', 'e'] s).map fun s => (.bool false, s)
      else if c = 'n' then (expect ['u', 'l', 'l'] s).map fun s => (.null, s)
      else if validNumber ((c :: s).takeWhile isNumChar) then
        some (.num (String.ofList ((c :: s).takeWhile isNumChar)), (c :: s).dropWhile isNumChar)
      else none

/-- Read the items of an array that is not empty. -/
def parseItems : ℕ → List Char → Option (List Json × List Char)
  | 0, _ => none
  | n + 1, s => do
    let (v, s) ← parseValue n s
    match skipSpace s with
    | ',' :: s => do
      let (vs, s) ← parseItems n s
      some (v :: vs, s)
    | ']' :: s => some ([v], s)
    | _ => none

/-- Read the members of an object that is not empty. -/
def parseMembers : ℕ → List Char → Option (List (String × Json) × List Char)
  | 0, _ => none
  | n + 1, s =>
    match skipSpace s with
    | '"' :: s => do
      let (k, s) ← parseString s
      match skipSpace s with
      | ':' :: s => do
        let (v, s) ← parseValue n s
        match skipSpace s with
        | ',' :: s => do
          let (ms, s) ← parseMembers n s
          some ((k, v) :: ms, s)
        | '}' :: s => some ([(k, v)], s)
        | _ => none
      | _ => none
    | _ => none

end

/-- Read a text: one value, with white space around it. -/
def parseText (data : Bytes) : Option Json :=
  let s := decodeRunes data
  match parseValue (2 * s.length + 2) s with
  | some (v, rest) => if skipSpace rest = [] then some v else none
  | none => none

mutual

/-- How deep arrays and objects are nested. -/
def depth : Json → ℕ
  | arr items => depthItems items + 1
  | obj members => depthMembers members + 1
  | null => 0
  | bool _ => 0
  | num _ => 0
  | str _ => 0
termination_by structural j => j

def depthItems : List Json → ℕ
  | [] => 0
  | v :: vs => max (depth v) (depthItems vs)
termination_by structural l => l

def depthMember : String × Json → ℕ
  | (_, v) => depth v
termination_by structural m => m

def depthMembers : List (String × Json) → ℕ
  | [] => 0
  | m :: ms => max (depthMember m) (depthMembers ms)
termination_by structural l => l

end

/-- The nesting `encoding/json` accepts. -/
def maxNesting : ℕ := 10000

/-- Read a document. -/
def parse (data : Bytes) : Option Json := (parseText data).filter fun j => j.depth ≤ maxNesting

mutual

def printValue : Json → List Char
  | null => ['n', 'u', 'l', 'l']
  | bool true => ['t', 'r', 'u', 'e']
  | bool false => ['f', 'a', 'l', 's', 'e']
  | num literal => literal.toList
  | str s => printString s
  | arr items => '[' :: (printItems items ++ [']'])
  | obj members => '{' :: (printMembers members ++ ['}'])
termination_by structural j => j

def printItems : List Json → List Char
  | [] => []
  | v :: vs => printValue v ++ printMoreItems vs
termination_by structural l => l

def printMoreItems : List Json → List Char
  | [] => []
  | v :: vs => ',' :: (printValue v ++ printMoreItems vs)
termination_by structural l => l

def printMember : String × Json → List Char
  | (k, v) => printString k ++ ':' :: printValue v
termination_by structural m => m

def printMembers : List (String × Json) → List Char
  | [] => []
  | m :: ms => printMember m ++ printMoreMembers ms
termination_by structural l => l

def printMoreMembers : List (String × Json) → List Char
  | [] => []
  | m :: ms => ',' :: (printMember m ++ printMoreMembers ms)
termination_by structural l => l

end

/-- The bytes of a document. -/
def print (j : Json) : Bytes := encodeRunes (printValue j)

end Json

end Bifurcation
