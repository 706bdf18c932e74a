import ExposureKit.Bytes.Hex

/-!
# Byte-string literals

A byte string is shown as a literal such as `b'hello\n'`: printable ASCII stands
for itself, `\t`, `\n`, `\r` and `\\` have short escapes, and every other byte is
written `\xhh`. The single quote delimits the literal, unless the bytes hold a
single quote and no double quote; a delimiter inside the literal is escaped.

`ofBytes` writes the literal and `read?` reads one back, from the left and
without knowing where it ends.
-/

namespace ExposureKit.Literal

/-! ## Writing -/

/-- The single quote. -/
def singleQuote : UInt8 := 0x27

/-- The double quote. -/
def doubleQuote : UInt8 := 0x22

/-- The quote that delimits the literal of these bytes. -/
def delimiter (bytes : List UInt8) : UInt8 :=
  if bytes.contains singleQuote && !bytes.contains doubleQuote then doubleQuote else singleQuote

/-- The character of a byte, by its code. -/
def charOf (b : UInt8) : Char := Char.ofNat b.toNat

/-- A byte of printable ASCII, the space included. -/
def isPrintable (b : UInt8) : Bool := 0x20 ≤ b && b ≤ 0x7E

/-- The written form of one byte between the delimiters `quote`. -/
def escape (quote b : UInt8) : List Char :=
  if b = 0x5C then ['\\', '\\']
  else if b = 0x09 then ['\\', 't']
  else if b = 0x0A then ['\\', 'n']
  else if b = 0x0D then ['\\', 'r']
  else if b = quote then ['\\', charOf b]
  else if isPrintable b then [charOf b]
  else '\\' :: 'x' :: Hex.lowerByte b

/-- The literal of a byte string. -/
def ofBytes (bytes : List UInt8) : List Char :=
  let quote := delimiter bytes
  'b' :: charOf quote :: (bytes.flatMap (escape quote) ++ [charOf quote])

/-! ## Reading -/

/-- Reads up to and including the closing `quote`; gives the bytes read and the
characters after the quote. A quote of either kind may stand escaped. -/
def readBody (quote : Char) : List Char → Option (List UInt8 × List Char)
  | [] => none
  | ['\\'] => none
  | '\\' :: 'x' :: high :: low :: rest => do
    let b ← Hex.byte? high low
    let (bytes, after) ← readBody quote rest
    pure (b :: bytes, after)
  | '\\' :: c :: rest => do
    let b ← match c with
      | '\\' => some 0x5C
      | 't' => some 0x09
      | 'n' => some 0x0A
      | 'r' => some 0x0D
      | '"' => some doubleQuote
      | '\'' => some singleQuote
      | _ => none
    let (bytes, after) ← readBody quote rest
    pure (b :: bytes, after)
  | c :: rest =>
    if c = quote then some ([], rest)
    else if ' ' ≤ c ∧ c ≤ '~' then do
      let (bytes, after) ← readBody quote rest
      pure (UInt8.ofNat c.toNat :: bytes, after)
    else none

/-- Reads one literal from the left; gives its bytes and the characters after
its closing quote. -/
def read? : List Char → Option (List UInt8 × List Char)
  | 'b' :: quote :: rest =>
    if quote = '\'' ∨ quote = '"' then readBody quote rest else none
  | _ => none

end ExposureKit.Literal
