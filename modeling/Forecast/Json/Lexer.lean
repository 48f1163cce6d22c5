import Forecast.Json.Token

/-!
# Reading tokens

The lexer takes one character at a time and is a fold over the text. It is always in one of a few
modes: between lexemes, inside a word, inside a number, or inside a string literal.

## Surrogates

Inside a literal the lexer keeps code points, the last one first. An escape may denote a surrogate;
a low surrogate that directly follows a high one is joined with it at once. A surrogate that is left
when the literal closes was not paired, and the literal is then no text.

## Termination

Everything here is a fold; a text of any length and depth is read in constant stack.
-/

namespace Forecast.Json

/-- What the lexer is reading. Characters and code points read so far are kept in reverse. -/
inductive Mode
  | between
  | word (letters : List Char)
  | number (digits : List Char)
  | text (units : List Nat)
  | escape (units : List Nat)
  | hex (units : List Nat) (left value : Nat)
deriving DecidableEq

/-- The state of the lexer: its mode, and the tokens read so far in reverse. -/
structure Lexer where
  mode : Mode
  tokens : List Token
deriving DecidableEq

/-- A high surrogate starts a pair. -/
def isHighSurrogate (n : Nat) : Bool := 0xD800 ≤ n && n ≤ 0xDBFF

/-- A low surrogate ends a pair. -/
def isLowSurrogate (n : Nat) : Bool := 0xDC00 ≤ n && n ≤ 0xDFFF

/-- Adds a code unit to a literal, joining a low surrogate with a high one directly before it. -/
def pushUnit (units : List Nat) (n : Nat) : List Nat :=
  match units with
  | [] => [n]
  | high :: rest =>
    if isHighSurrogate high && isLowSurrogate n then
      (0x10000 + (high - 0xD800) * 0x400 + (n - 0xDC00)) :: rest
    else n :: high :: rest

/-- The literal with the given code points in reverse. -/
def closeLiteral (units : List Nat) : Literal :=
  if units.any fun n => isHighSurrogate n || isLowSurrogate n then none
  else some (String.ofList (units.reverse.map Char.ofNat))

/-- The four blanks of JSON. -/
def isSpace (c : Char) : Bool :=
  c == ' ' || c == '\t' || c == '\n' || c == '\r'

/-- The characters a number may be made of. -/
def isNumberChar (c : Char) : Bool :=
  c.isDigit || c == '-' || c == '+' || c == '.' || c == 'e' || c == 'E'

/-- The code point that a one-letter escape denotes. -/
def simpleEscape? (c : Char) : Option Nat :=
  if c = '"' ∨ c = '\\' ∨ c = '/' then some c.toNat
  else if c = 'b' then some 0x08
  else if c = 'f' then some 0x0C
  else if c = 'n' then some 0x0A
  else if c = 'r' then some 0x0D
  else if c = 't' then some 0x09
  else none

namespace Lexer

/-- The first character of a lexeme, or a blank between lexemes. -/
def start (tokens : List Token) (c : Char) : Option Lexer :=
  if isSpace c then some ⟨.between, tokens⟩
  else if c = '[' then some ⟨.between, .openArray :: tokens⟩
  else if c = ']' then some ⟨.between, .closeArray :: tokens⟩
  else if c = '\x7b' then some ⟨.between, .openObject :: tokens⟩
  else if c = '\x7d' then some ⟨.between, .closeObject :: tokens⟩
  else if c = ',' then some ⟨.between, .comma :: tokens⟩
  else if c = ':' then some ⟨.between, .colon :: tokens⟩
  else if c = '"' then some ⟨.text [], tokens⟩
  else if c = '-' || c.isDigit then some ⟨.number [c], tokens⟩
  else if c.isLower then some ⟨.word [c], tokens⟩
  else none

/-- The tokens with the lexeme under way added, which must be complete. -/
def flush (l : Lexer) : Option (List Token) :=
  match l.mode with
  | .between => some l.tokens
  | .word cs => (Token.ofWord? cs.reverse).map (· :: l.tokens)
  | .number cs => (Numeral.ofText? cs.reverse).map (.number · :: l.tokens)
  | _ => none

/-- Takes one character. -/
def step (l : Lexer) (c : Char) : Option Lexer :=
  match l.mode with
  | .between => start l.tokens c
  | .word cs =>
    if c.isLower then some ⟨.word (c :: cs), l.tokens⟩
    else l.flush.bind fun tokens => start tokens c
  | .number cs =>
    if isNumberChar c then some ⟨.number (c :: cs), l.tokens⟩
    else l.flush.bind fun tokens => start tokens c
  | .text units =>
    if c = '"' then some ⟨.between, .text (closeLiteral units) :: l.tokens⟩
    else if c = '\\' then some ⟨.escape units, l.tokens⟩
    else if c.toNat < 0x20 then none
    else some ⟨.text (pushUnit units c.toNat), l.tokens⟩
  | .escape units =>
    if c = 'u' then some ⟨.hex units 3 0, l.tokens⟩
    else (simpleEscape? c).map fun n => ⟨.text (pushUnit units n), l.tokens⟩
  | .hex units left value =>
    (Text.hexValue? c).map fun d =>
      let value := 16 * value + d
      match left with
      | 0 => ⟨.text (pushUnit units value), l.tokens⟩
      | left + 1 => ⟨.hex units left value, l.tokens⟩

/-- The lexer before the first character. -/
def initial : Lexer := ⟨.between, []⟩

/-- Takes a text. -/
def run (l : Lexer) (cs : List Char) : Option Lexer :=
  cs.foldlM step l

@[simp] theorem run_nil (l : Lexer) : l.run [] = some l := rfl

@[simp] theorem run_cons (l : Lexer) (c : Char) (cs : List Char) :
    l.run (c :: cs) = (l.step c).bind fun l' => l'.run cs := rfl

theorem run_append (l : Lexer) (cs ds : List Char) :
    l.run (cs ++ ds) = (l.run cs).bind fun l' => l'.run ds := by
  simp [run, List.foldlM_append]

end Lexer

/-- The tokens of a text, or nothing if it is not made of lexemes. -/
def tokens? (cs : List Char) : Option (List Token) :=
  ((Lexer.initial.run cs).bind Lexer.flush).map List.reverse

end Forecast.Json
