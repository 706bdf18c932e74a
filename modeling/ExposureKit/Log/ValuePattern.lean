import ExposureKit.Bytes.Hex
import ExposureKit.Text.Blank
import ExposureKit.Text.Numeric

/-!
# Patterns for values

A log directive may ask for a field with a certain value, which it gives as a number or
as a regular expression. Here it is only decided whether it is one of the two:
`isValid`.

Expressions are those for automata without tables of Unicode. Refused are therefore
the classes `\d`, `\s`, `\w` and `\p`, word boundaries and the folding of case, except
for ASCII, to which the flag `-u` restricts an expression; with that flag everything
that could match half a character is refused as well. A counted repetition needs a
closing brace, which ends the field of a directive, so an opening brace is refused.
Expressions nest at most `depthLimit` deep.
-/

namespace ExposureKit.ValuePattern

/-! ## Numbers -/

/-- The text without a sign at its front. -/
def unsigned : List Char → List Char
  | '+' :: text => text
  | '-' :: text => text
  | text => text

/-- Nothing, or an exponent: a letter `e`, a sign or none, and digits. -/
def isExponent : List Char → Bool
  | [] => true
  | c :: text =>
    (c == 'e' || c == 'E') && !(unsigned text).isEmpty && (unsigned text).all Char.isDigit

/-- Digits, with a point before, among or after them, and an exponent or none. -/
def isDecimal (text : List Char) : Bool :=
  let whole := text.takeWhile Char.isDigit
  match text.drop whole.length with
  | '.' :: rest =>
    let fraction := rest.takeWhile Char.isDigit
    !(whole.isEmpty && fraction.isEmpty) && isExponent (rest.drop fraction.length)
  | rest => !whole.isEmpty && isExponent rest

/-- The words that stand for numbers, in small letters. -/
def numberWords : List String := ["inf", "infinity", "nan"]

/-- A number, with a sign or without one. -/
def isNumber (text : List Char) : Bool :=
  isDecimal (unsigned text)
    || numberWords.contains (String.ofList ((unsigned text).map Char.toLower))

/-! ## Flags -/

/-- The flags on which it depends what is refused. -/
structure Flags where
  /-- Case is folded. -/
  foldsCase : Bool
  /-- Characters are matched, not bytes. -/
  unicode : Bool
  /-- Blanks and comments are skipped. -/
  spaced : Bool
  deriving DecidableEq, Repr

namespace Flags

/-- The flags at the start of an expression. -/
def standard : Flags := ⟨false, true, false⟩

/-- The letters of all flags. -/
def letters : List Char := ['i', 'm', 's', 'U', 'u', 'R', 'x']

/-- Sets or clears one flag; the others make no difference here. -/
def set (flags : Flags) (value : Bool) (letter : Char) : Flags :=
  if letter = 'i' then { flags with foldsCase := value }
  else if letter = 'u' then { flags with unicode := value }
  else if letter = 'x' then { flags with spaced := value }
  else flags

/-- Sets the flags of which the letters stand before a hyphen, and clears those after
it. -/
def change (flags : Flags) (text : List Char) : Flags :=
  let on := text.takeWhile (· != '-')
  let off := text.drop (on.length + 1)
  off.foldl (set · false) (on.foldl (set · true) flags)

/-- Letters of flags, each at most once, with at most one hyphen, and not at the end. -/
def isChange (text : List Char) : Bool :=
  text.all (fun c => c == '-' || letters.contains c) && decide text.Nodup
    && text.getLast? != some '-'

/-- A single character may be matched. -/
def allowsCharacter (flags : Flags) : Bool := !(flags.foldsCase && flags.unicode)

/-- The character may be in a class. -/
def allowsMember (flags : Flags) (c : Char) : Bool :=
  if flags.unicode then !flags.foldsCase else c.toNat < 128

end Flags

/-- Skips blanks, and comments from a number sign to the end of its line. -/
def skipSpace (inComment : Bool) : List Char → List Char
  | [] => []
  | c :: text =>
    if inComment then skipSpace (c != '\n') text
    else if isBlank c then skipSpace false text
    else if c = '#' then skipSpace true text
    else c :: text

/-- What is read next. -/
def skip (flags : Flags) (text : List Char) : List Char :=
  if flags.spaced then skipSpace false text else text

/-- The character by which it is told whether a hyphen in a class makes a range. Blanks
before it are skipped, and one number sign with the blanks after it, but no comment. -/
def peek (flags : Flags) (text : List Char) : Option Char :=
  if !flags.spaced then text.head?
  else match text.dropWhile isBlank with
    | '#' :: comment => (comment.dropWhile isBlank).head?
    | text => text.head?

/-! ## Depth -/

/-- The deepest an expression may nest. -/
def depthLimit : Nat := 250

/-- Parts that stand side by side: how many, and how deep the deepest of them is. -/
structure Tally where
  /-- How many parts there are. -/
  count : Nat
  /-- The depth of the deepest. -/
  depth : Nat

namespace Tally

/-- No parts. -/
def empty : Tally := ⟨0, 0⟩

/-- One part more. -/
def add (tally : Tally) (depth : Nat) : Tally := ⟨tally.count + 1, max tally.depth depth⟩

/-- The depth of what the parts make: more than one part are one level more. -/
def joined (tally : Tally) : Nat := if tally.count ≤ 1 then tally.depth else tally.depth + 1

end Tally

/-! ## Escapes -/

/-- What an escape stands for. -/
inductive Escape where
  /-- A character. -/
  | character (c : Char)
  /-- A class of characters. -/
  | members
  /-- A place between characters. -/
  | place

/-- Reads further `count` hexadecimal digits of a number that begins with `value`. -/
def readHex (flags : Flags) (value : Nat) : (count : Nat) → List Char → Option (Nat × List Char)
  | 0, text => some (value, text)
  | count + 1, text =>
    match skip flags text with
    | [] => none
    | c :: rest => (Hex.value? c).bind fun digit => readHex flags (16 * value + digit) count rest

/-- Reads a code point of `count` hexadecimal digits, up to `limit`. -/
def readCodePoint (flags : Flags) (count limit : Nat) (text : List Char) :
    Option (Escape × List Char) :=
  (readHex flags 0 count text).bind fun (n, rest) =>
    if n ≤ limit ∧ n.isValidChar then some (.character (Char.ofNat n), rest) else none

/-- The largest code point. -/
def lastCodePoint : Nat := 0x10FFFF

/-- The letters that stand for control characters after a backslash. -/
def controlLetters : List (Char × Char) :=
  [('a', '\x07'), ('f', '\x0c'), ('t', '\t'), ('n', '\n'), ('r', '\r'), ('v', '\x0b')]

/-- Reads what follows a backslash. -/
def readEscape (flags : Flags) : List Char → Option (Escape × List Char)
  | [] => none
  | c :: rest =>
    if c = 'x' then readCodePoint flags 2 (if flags.unicode then lastCodePoint else 0x7F) rest
    else if c = 'u' then readCodePoint flags 4 lastCodePoint rest
    else if c = 'U' then readCodePoint flags 8 lastCodePoint rest
    else if ['d', 's', 'w'].contains c then
      if flags.unicode then none else some (.members, rest)
    else if let some control := controlLetters.lookup c then some (.character control, rest)
    else if ['A', 'z'].contains c then some (.place, rest)
    else if ['b', 'B', '<', '>'].contains c then
      if flags.unicode then none else some (.place, rest)
    else if c.toNat < 128 && !c.isAlphanum then some (.character c, rest)
    else none

/-! ## Bracketed classes -/

/-- The names of the ASCII classes. -/
def asciiClasses : List String :=
  ["alnum", "alpha", "ascii", "blank", "cntrl", "digit", "graph", "lower", "print", "punct",
   "space", "upper", "word", "xdigit"]

/-- Reads an ASCII class, after its opening bracket; tells whether it is negated. -/
def asciiClass? : List Char → Option (Bool × List Char)
  | ':' :: text =>
    let negated := text.head? = some '^'
    let text := if negated then text.tail else text
    let name := text.takeWhile (· != ':')
    match text.drop name.length with
    | ':' :: ']' :: rest =>
      if asciiClasses.contains (String.ofList name) then some (negated, rest) else none
    | _ => none
  | _ => none

/-- Reads one end of a range or a single member. -/
def readMember (flags : Flags) : List Char → Option (Escape × List Char)
  | [] => none
  | '\\' :: rest => readEscape flags rest
  | c :: rest => some (.character c, rest)

/-- A single member of a class is allowed. -/
def isMember (flags : Flags) : Escape → Bool
  | .character c => flags.allowsMember c
  | .members => true
  | .place => false

/-- Two members make a range. -/
def isRange (flags : Flags) : Escape → Escape → Bool
  | .character first, .character last =>
    flags.allowsMember first && flags.allowsMember last && first ≤ last
  | _, _ => false

/-- Reads a member or a range. A hyphen makes no range where a closing bracket or another
hyphen is seen after it. -/
def readRange (flags : Flags) (text : List Char) : Option (List Char) :=
  (readMember flags text).bind fun (first, rest) =>
    let single := if isMember flags first then some rest else none
    match skip flags rest with
    | [] => none
    | '-' :: after =>
      if peek flags after = some ']' ∨ peek flags after = some '-' then single
      else (readMember flags (skip flags after)).bind fun (last, rest) =>
        if isRange flags first last then some rest else none
    | _ => single

/-- A class that is being read. -/
structure OpenClass where
  /-- The members since the last operator. -/
  members : Tally
  /-- The depth of what stands before the last operator, if there was one. -/
  operand : Option Nat

namespace OpenClass

/-- A class of which nothing has been read. -/
def start : OpenClass := ⟨.empty, none⟩

/-- One member more. -/
def add (c : OpenClass) (depth : Nat) : OpenClass := { c with members := c.members.add depth }

/-- The depth of the members and the operators between them. -/
def depth (c : OpenClass) : Nat :=
  match c.operand with
  | none => c.members.joined
  | some depth => max depth c.members.joined + 1

/-- An operator follows. -/
def operate (c : OpenClass) : OpenClass := ⟨.empty, some c.depth⟩

end OpenClass

/-- Where a class is being read. -/
inductive ClassPlace where
  /-- At its first member, which may be a closing bracket or a hyphen. -/
  | first
  /-- After hyphens at its front. -/
  | afterHyphens
  /-- Anywhere else. -/
  | inside
  deriving DecidableEq

/-- Reads the opening of a class, after its bracket: it may be negated. -/
def openClass? (flags : Flags) (text : List Char) : Option (List Char) :=
  match skip flags text with
  | '^' :: rest => if flags.unicode then some rest else none
  | rest => some rest

/-- Reads the rest of a class that lies in the classes `outer`; gives its depth and
what follows its closing bracket. -/
def readClass (flags : Flags) : (fuel : Nat) → ClassPlace → OpenClass → (outer : List OpenClass) →
    List Char → Option (Nat × List Char)
  | 0, _, _, _, _ => none
  | fuel + 1, place, current, outer, text =>
    match skip flags text with
    | [] => none
    | c :: rest =>
      if c = '-' ∧ place ≠ .inside then
        if flags.allowsMember c then
          readClass flags fuel .afterHyphens (current.add 0) outer rest
        else none
      else if c = ']' ∧ place = .first then
        if flags.allowsMember c then readClass flags fuel .inside (current.add 0) outer rest
        else none
      else if c = ']' then
        match outer with
        | [] => some (current.depth + 1, rest)
        | around :: outer =>
          readClass flags fuel .inside (around.add (current.depth + 1)) outer rest
      else if c = '[' then
        match asciiClass? rest with
        | some (negated, rest) =>
          if if flags.unicode then !flags.foldsCase else !negated then
            readClass flags fuel .inside (current.add 0) outer rest
          else none
        | none => (openClass? flags rest).bind fun rest =>
          readClass flags fuel .first .start (current :: outer) rest
      else if (c = '&' ∨ c = '-' ∨ c = '~') ∧ rest.head? = some c then
        readClass flags fuel .inside current.operate outer rest.tail
      else (readRange flags (c :: rest)).bind fun rest =>
        readClass flags fuel .inside (current.add 0) outer rest

/-! ## Items and operators -/

/-- Reads an item that is no group; gives its depth and what follows it. -/
def readItem (flags : Flags) (fuel : Nat) : List Char → Option (Nat × List Char)
  | [] => none
  | '[' :: rest => (openClass? flags rest).bind fun rest =>
    readClass flags fuel .first .start [] rest
  | '\\' :: rest => (readEscape flags rest).bind fun (escape, rest) =>
    match escape with
    | .character _ => if flags.allowsCharacter then some (0, rest) else none
    | _ => some (0, rest)
  | c :: rest =>
    if ['*', '+', '?', '{'].contains c then none
    else if c = '.' then if flags.unicode then some (0, rest) else none
    else if c = '^' ∨ c = '$' then some (0, rest)
    else if flags.allowsCharacter then some (0, rest)
    else none

/-- Reads the repetitions of an item, each with a question mark after it or none; gives
their number. -/
def readRepetitions (flags : Flags) : (fuel : Nat) → List Char → Nat × List Char
  | 0, text => (0, text)
  | fuel + 1, text =>
    match skip flags text with
    | [] => (0, [])
    | c :: rest =>
      if ['*', '+', '?'].contains c then
        let (count, rest) :=
          readRepetitions flags fuel (if rest.head? = some '?' then rest.tail else rest)
        (count + 1, rest)
      else (0, c :: rest)

/-! ## Groups -/

/-- A character that the name of a group may begin with. -/
def mayBeginName (c : Char) : Bool := c == '_' || isAlphabetic c

/-- A character that the name of a group may go on with. -/
def mayContinueName (c : Char) : Bool :=
  c == '_' || c == '.' || c == '[' || c == ']' || isAlphanumeric c

/-- The text is the name of a group. -/
def isGroupName : List Char → Bool
  | [] => false
  | c :: text => mayBeginName c && text.all mayContinueName

/-- What surrounds a group that is being read. -/
structure Surrounding where
  /-- The flags to go back to. -/
  flags : Flags
  /-- The branches before the one in which the group stands. -/
  branches : Tally
  /-- The items of that branch before the group. -/
  items : Tally

/-- How far an expression has been read. -/
structure Reading where
  /-- The flags in force. -/
  flags : Flags
  /-- The complete branches of the group. -/
  branches : Tally
  /-- The items of the branch. -/
  items : Tally
  /-- What surrounds the open groups, the innermost first. -/
  outer : List Surrounding
  /-- The names of groups so far. -/
  names : List (List Char)

namespace Reading

/-- Nothing has been read. -/
def start : Reading := ⟨.standard, .empty, .empty, [], []⟩

/-- The depth of the group so far. -/
def depth (r : Reading) : Nat := (r.branches.add r.items.joined).joined

/-- One item more. -/
def add (r : Reading) (depth : Nat) : Reading := { r with items := r.items.add depth }

/-- A new branch begins. -/
def nextBranch (r : Reading) : Reading :=
  { r with branches := r.branches.add r.items.joined, items := .empty }

/-- A group begins, with these flags. -/
def enter (r : Reading) (flags : Flags) : Reading :=
  { r with flags, branches := .empty, items := .empty,
           outer := ⟨r.flags, r.branches, r.items⟩ :: r.outer }

/-- The group ends; gives its depth. -/
def leave (r : Reading) : Option (Nat × Reading) :=
  match r.outer with
  | [] => none
  | around :: outer =>
    some (r.depth + 1, { r with flags := around.flags, branches := around.branches,
                                items := around.items, outer })

/-- Reads the name of a group, which no other group may have. -/
def enterNamed (r : Reading) (text : List Char) : Option (Reading × List Char) :=
  let name := text.takeWhile (· != '>')
  match text.drop name.length with
  | [] => none
  | _ :: rest =>
    if isGroupName name && !r.names.contains name then
      some ({ r.enter r.flags with names := name :: r.names }, rest)
    else none

/-- Reads flags, which a parenthesis ends that has nothing else in it, or a colon. -/
def readFlags (r : Reading) (text : List Char) : Option (Reading × List Char) :=
  let change := text.takeWhile fun c => c != ':' && c != ')'
  if !Flags.isChange change then none
  else match text.drop change.length with
    | ':' :: rest => some (r.enter (r.flags.change change), rest)
    | ')' :: rest =>
      if change.isEmpty then none else some ({ r.add 0 with flags := r.flags.change change }, rest)
    | _ => none

/-- Reads what follows an opening parenthesis, as far as it opens a group. -/
def readOpening (r : Reading) : List Char → Option (Reading × List Char)
  | '?' :: 'P' :: '<' :: rest => r.enterNamed rest
  | '?' :: '<' :: rest => r.enterNamed rest
  | '?' :: rest => r.readFlags rest
  | rest => some (r.enter r.flags, rest)

end Reading

/-! ## Whole expressions -/

/-- The rest of an expression is well formed. Fuel for one character more than the rest
has is enough for all that is read of it. -/
def isExpressionFrom : (fuel : Nat) → Reading → List Char → Bool
  | 0, _, _ => false
  | fuel + 1, r, text =>
    let next (r : Reading) (item : Nat × List Char) : Bool :=
      let (count, rest) := readRepetitions r.flags fuel item.2
      isExpressionFrom fuel (r.add (item.1 + count)) rest
    match skip r.flags text with
    | [] => r.outer.isEmpty && r.depth ≤ depthLimit
    | '(' :: rest =>
      (r.readOpening (skip r.flags rest)).any fun (r, rest) => isExpressionFrom fuel r rest
    | ')' :: rest => r.leave.any fun (depth, r) => next r (depth, rest)
    | '|' :: rest => isExpressionFrom fuel r.nextBranch rest
    | text => (readItem r.flags fuel text).any (next r)

/-- The text is a regular expression. -/
def isExpression (text : List Char) : Bool := isExpressionFrom (text.length + 1) .start text

/-- The text may stand for the values of a field. -/
def isValid (text : List Char) : Bool := isNumber text || isExpression text

end ExposureKit.ValuePattern
