import Forecast.Json.Reader

/-!
# Writing values

A value is written by its tokens. The compact form writes nothing between them. The indented form
puts every item and member on a line of its own, two blanks further in than its container, one blank
after each colon, and nothing inside an empty container.
-/

namespace Forecast.Json

namespace Value

mutual

/-- The tokens of a value. -/
def tokens : Value → List Token
  | null => [.null]
  | bool b => [.bool b]
  | number n => [.number n]
  | text s => [.text s]
  | array items => .openArray :: itemTokens items ++ [.closeArray]
  | object members => .openObject :: memberTokens members ++ [.closeObject]

/-- The tokens of the items of an array, with commas between them. -/
def itemTokens : List Value → List Token
  | [] => []
  | [v] => v.tokens
  | v :: w :: vs => v.tokens ++ .comma :: itemTokens (w :: vs)

/-- The tokens of the members of an object, with commas between them. -/
def memberTokens : List (Literal × Value) → List Token
  | [] => []
  | [(k, v)] => .text k :: .colon :: v.tokens
  | (k, v) :: m :: ms => .text k :: .colon :: v.tokens ++ .comma :: memberTokens (m :: ms)

end

/-- The text without any blanks. -/
def compactChars (v : Value) : List Char :=
  v.tokens.flatMap Token.chars

/-- The text without any blanks. -/
def compact (v : Value) : String :=
  String.ofList v.compactChars

/-- A new line with the indentation of a depth. -/
def newLine (depth : Nat) : List Char :=
  '\n' :: List.replicate (2 * depth) ' '

mutual

/-- The lines of a value that starts at the given depth. -/
def lines (depth : Nat) : Value → List Char
  | null => Token.null.chars
  | bool b => (Token.bool b).chars
  | number n => (Token.number n).chars
  | text s => (Token.text s).chars
  | array [] => Token.openArray.chars ++ Token.closeArray.chars
  | array (v :: vs) =>
    Token.openArray.chars ++ itemLines (depth + 1) (v :: vs) ++ newLine depth ++
      Token.closeArray.chars
  | object [] => Token.openObject.chars ++ Token.closeObject.chars
  | object (m :: ms) =>
    Token.openObject.chars ++ memberLines (depth + 1) (m :: ms) ++ newLine depth ++
      Token.closeObject.chars

/-- The items of an array, each on a line of its own. -/
def itemLines (depth : Nat) : List Value → List Char
  | [] => []
  | [v] => newLine depth ++ v.lines depth
  | v :: w :: vs =>
    newLine depth ++ v.lines depth ++ Token.comma.chars ++ itemLines depth (w :: vs)

/-- The members of an object, each on a line of its own. -/
def memberLines (depth : Nat) : List (Literal × Value) → List Char
  | [] => []
  | [(k, v)] =>
    newLine depth ++ (Token.text k).chars ++ Token.colon.chars ++ ' ' :: v.lines depth
  | (k, v) :: m :: ms =>
    newLine depth ++ (Token.text k).chars ++ Token.colon.chars ++ ' ' :: v.lines depth ++
      Token.comma.chars ++ memberLines depth (m :: ms)

end

/-- The indented text, without a line end after it. -/
def indented (v : Value) : String :=
  String.ofList (v.lines 0)

end Value

end Forecast.Json
