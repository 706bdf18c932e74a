/-!
# Forgiving base64

Text in the standard alphabet, read leniently: bytes outside the alphabet are
noise, and a padding group that closes a group of four ends the text. What is
left has to be whole groups with their padding; spare bits of the last symbol
are dropped whatever they are.

* `clean` removes the noise and leaves symbols, then padding if a group is closed;
* `decodeStrict` is the value of a text by strict rules, or the first fault that it has;
* `decode` is the strict value of what `clean` leaves;
* `encode` is the canonical text of a byte string.
-/

namespace ExposureKit.Base64

/-! ## The alphabet -/

/-- The padding sign `=`. -/
def pad : UInt8 := 0x3D

/-- The six bits that a symbol of the standard alphabet stands for. -/
def sextet? (b : UInt8) : Option (Fin 64) :=
  let n := b.toNat
  if h : 65 ≤ n ∧ n ≤ 90 then some ⟨n - 65, by omega⟩
  else if h : 97 ≤ n ∧ n ≤ 122 then some ⟨n - 71, by omega⟩
  else if h : 48 ≤ n ∧ n ≤ 57 then some ⟨n + 4, by omega⟩
  else if n = 43 then some 62
  else if n = 47 then some 63
  else none

/-- A byte of the alphabet. -/
def isSymbol (b : UInt8) : Bool := (sextet? b).isSome

/-- The symbol of six bits. -/
def symbol (s : Fin 64) : UInt8 :=
  let n := s.val
  UInt8.ofNat (if n < 26 then n + 65 else if n < 52 then n + 71 else if n < 62 then n - 4
    else if n = 62 then 43 else 47)

theorem sextet?_symbol (s : Fin 64) : sextet? (symbol s) = some s := by
  revert s; decide

theorem isSymbol_symbol (s : Fin 64) : isSymbol (symbol s) = true := by
  rw [isSymbol, sextet?_symbol]; rfl

theorem symbol_ne_pad (s : Fin 64) : symbol s ≠ pad := by
  revert s; decide

theorem isSymbol_pad : isSymbol pad = false := by decide

/-! ## Cleaning -/

/-- Cleans a text of which `phase` symbols of the current group of four and
after them `pads` padding signs have been read. Padding counts only once a group
has two symbols, and the signs that complete such a group end the text. -/
def cleanFrom (phase pads : Nat) : List UInt8 → List UInt8
  | [] => []
  | b :: text =>
    if b = pad then
      if 2 ≤ phase then
        if 4 ≤ phase + (pads + 1) then List.replicate (pads + 1) pad
        else cleanFrom phase (pads + 1) text
      else cleanFrom phase pads text
    else if isSymbol b then b :: cleanFrom ((phase + 1) % 4) 0 text
    else cleanFrom phase pads text

/-- The symbols of a text, up to the padding that first closes a group, and that
padding. -/
def clean (text : List UInt8) : List UInt8 := cleanFrom 0 0 text

/-! ## Decoding -/

/-- The eight bits of which `a` holds the first six and `b` begins with the last two. -/
def firstByte (a b : Fin 64) : UInt8 := UInt8.ofNat (4 * a.val + b.val / 16)

/-- The eight bits shared by the second and the third symbol of a group. -/
def secondByte (b c : Fin 64) : UInt8 := UInt8.ofNat (16 * (b.val % 16) + c.val / 4)

/-- The eight bits shared by the third and the fourth symbol of a group. -/
def thirdByte (c d : Fin 64) : UInt8 := UInt8.ofNat (64 * (c.val % 4) + d.val)

/-- The whole bytes in a run of six-bit values; bits that fill no byte are dropped. -/
def bytesOf : List (Fin 64) → List UInt8
  | a :: b :: c :: d :: rest => firstByte a b :: secondByte b c :: thirdByte c d :: bytesOf rest
  | [a, b, c] => [firstByte a b, secondByte b c]
  | [a, b] => [firstByte a b]
  | _ => []

/-- Why a text has no value. -/
inductive Fault where
  /-- A byte that may not stand where it does. -/
  | badByte (offset : Nat) (byte : UInt8)
  /-- One symbol is left over after whole groups; the count is of all symbols. -/
  | symbolLeftOver (symbols : Nat)
  /-- The last symbol has spare bits that are not zero. -/
  | badLastSymbol (offset : Nat) (byte : UInt8)
  /-- The last group is not padded as it has to be. -/
  | badPadding
  deriving DecidableEq, Repr

/-- The text of a fault. -/
def Fault.message : Fault → String
  | .badByte offset byte =>
    "Invalid symbol " ++ toString byte ++ ", offset " ++ toString offset ++ "."
  | .symbolLeftOver symbols => "Invalid input length: " ++ toString symbols
  | .badLastSymbol offset byte =>
    "Invalid last symbol " ++ toString byte ++ ", offset " ++ toString offset ++ "."
  | .badPadding => "Invalid padding"

/-- What padding the last group may have. -/
inductive PaddingRule where
  /-- Any, or none. -/
  | free
  /-- Just as much as makes the group whole. -/
  | canonical
  /-- None. -/
  | absent
  deriving DecidableEq, Repr

/-- How strictly a text is read. -/
structure Rules where
  /-- The spare bits of the last symbol may be anything. -/
  spareBits : Bool
  /-- The padding of the last group. -/
  padding : PaddingRule

/-- The rules that cleaned texts are read by. -/
def lenient : Rules := ⟨true, .canonical⟩

/-- The last group of a text, as it is read. -/
structure LastGroup where
  /-- Its six-bit values. -/
  sextets : List (Fin 64)
  /-- The padding signs after them. -/
  pads : Nat

/-- The six-bit values of symbols, of which the first stands at `offset` of the text. -/
def sextetsFrom (offset : Nat) : List UInt8 → Except Fault (List (Fin 64))
  | [] => .ok []
  | b :: text =>
    match sextet? b with
    | none => .error (.badByte offset b)
    | some s => (sextetsFrom (offset + 1) text).map (s :: ·)

/-- Reads on in the last group, which begins at `start`; of it the six-bit values
`done`, the latest first, and `pads` padding signs have been read. -/
def lastGroupFrom (start : Nat) (done : List (Fin 64)) (pads : Nat) :
    List UInt8 → Except Fault LastGroup
  | [] => .ok ⟨done.reverse, pads⟩
  | b :: text =>
    if b = pad then
      if done.length + pads < 2 then .error (.badByte (start + done.length + pads) b)
      else lastGroupFrom start done (pads + 1) text
    else if 0 < pads then .error (.badByte (start + done.length) pad)
    else match sextet? b with
      | none => .error (.badByte (start + done.length) b)
      | some s => lastGroupFrom start (s :: done) pads text

namespace LastGroup

/-- The padding is what the rule asks for. -/
def paddedBy (group : LastGroup) : PaddingRule → Bool
  | .free => true
  | .canonical => (group.sextets.length + group.pads) % 4 = 0
  | .absent => group.pads = 0

/-- The number in the bits of the last symbol that belong to no byte. -/
def spare (group : LastGroup) : Nat :=
  match group.sextets with
  | [_, b] => b.val % 16
  | [_, _, c] => c.val % 4
  | _ => 0

/-- The first rule that the group, which begins at `start`, breaks. -/
def fault? (rules : Rules) (start : Nat) (group : LastGroup) : Option Fault :=
  if group.sextets.length < 2 then some (.symbolLeftOver (start + group.sextets.length))
  else if !group.paddedBy rules.padding then some .badPadding
  else if !rules.spareBits && group.spare ≠ 0 then
    group.sextets.getLast?.map fun s =>
      .badLastSymbol (start + group.sextets.length - 1) (symbol s)
  else none

end LastGroup

/-- The byte at the end of a text that is neither a symbol nor padding, and is all
that is left over after whole groups. It is noticed before any other. -/
def strayEnd? (text : List UInt8) : Option UInt8 :=
  if text.length % 4 = 1 then text.getLast?.filter fun b => b != pad && !isSymbol b else none

/-- The value of a text, read by the rules: whole groups of symbols, and a last group
that may be padded. -/
def decodeStrict (rules : Rules) (text : List UInt8) : Except Fault (List UInt8) :=
  match strayEnd? text with
  | some b => .error (.badByte (text.length - 1) b)
  | none =>
    let start := 4 * ((text.length - 1) / 4)
    (sextetsFrom 0 (text.take start)).bind fun whole =>
      (lastGroupFrom start [] 0 (text.drop start)).bind fun group =>
        if text.isEmpty then .ok []
        else match group.fault? rules start with
          | some fault => .error fault
          | none => .ok (bytesOf (whole ++ group.sextets))

/-- The value of a text, read leniently. -/
def decode (text : List UInt8) : Except Fault (List UInt8) := decodeStrict lenient (clean text)

/-! ## Encoding -/

/-- The canonical text of a byte string: groups of four symbols, the last of them
padded, and spare bits zero. -/
def encode : List UInt8 → List UInt8
  | x :: y :: z :: rest =>
    first x :: second x y :: third y z :: fourth z :: encode rest
  | [x, y] => [first x, second x y, third y 0, pad]
  | [x] => [first x, second x 0, pad, pad]
  | [] => []
where
  /-- The symbol of the first six bits of a group. -/
  first (x : UInt8) : UInt8 := symbol (Fin.ofNat 64 (x.toNat / 4))
  /-- The symbol of the second six bits of a group. -/
  second (x y : UInt8) : UInt8 := symbol (Fin.ofNat 64 (16 * (x.toNat % 4) + y.toNat / 16))
  /-- The symbol of the third six bits of a group. -/
  third (y z : UInt8) : UInt8 := symbol (Fin.ofNat 64 (4 * (y.toNat % 16) + z.toNat / 64))
  /-- The symbol of the last six bits of a group. -/
  fourth (z : UInt8) : UInt8 := symbol (Fin.ofNat 64 (z.toNat % 64))

end ExposureKit.Base64
