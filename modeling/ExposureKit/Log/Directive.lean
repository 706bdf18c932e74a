import ExposureKit.Log.Event
import ExposureKit.Log.ValuePattern
import ExposureKit.Text.ByteSlice
import ExposureKit.Text.Decimal
import ExposureKit.Text.Split

/-!
# Directives

A directive says up to which level events are written. It is a level, a target, or both
with an equals sign between them; after the target there may be brackets with the name
of a span and, in braces, a field with a value or without one: `target[span{field}]=debug`.

Where the parts of a directive meet is found in its text without the blanks at the ends,
but the parts are taken from the text as it stands, by the same positions in bytes. A
text with a blank in front may therefore be cut inside a character.
-/

namespace ExposureKit

/-- What a directive asks for in a field. -/
structure FieldQuery where
  /-- The name of the field. -/
  name : String
  /-- The pattern that its value has to match, if there is one. -/
  pattern : Option String
  deriving DecidableEq, Repr

/-- A directive: the events that it concerns are written up to `rank`. -/
structure LogDirective where
  /-- What the targets of the events begin with. -/
  target : Option String
  /-- The span in which the events lie. -/
  span : Option String
  /-- The field that the events have. -/
  field : Option FieldQuery
  /-- The rank up to which they are written; 0 writes none. -/
  rank : Nat
  deriving DecidableEq, Repr

/-- Why a text is no directive. -/
inductive DirectiveFault where
  /-- It is not made like one. -/
  | malformed
  /-- One of its parts begins or ends inside a character. -/
  | splitsCharacter
  deriving DecidableEq, Repr

namespace LogDirective

/-! ## Ranks -/

/-- The names of the ranks, from 0. -/
def rankNames : List String := ["off", "error", "warn", "info", "debug", "trace"]

/-- The rank that a decimal number names, one plus sign allowed. -/
def rankOfNumber? (text : List Char) : Option Nat :=
  let digits := match text with
    | '+' :: digits => digits
    | _ => text
  (Decimal.read? digits).filter (· ≤ LogLevel.trace.rank)

/-- The rank that a text names: a number, or a level in letters of either case. -/
def rank? (text : List Char) : Option Nat :=
  match rankOfNumber? text with
  | some rank => some rank
  | none => rankNames.findIdx? (· == String.ofList (text.map Char.toLower))

/-! ## Parts of a directive -/

/-- The text without the blanks at its ends. -/
def trim (text : List Char) : List Char :=
  ((text.dropWhile isBlank).reverse.dropWhile isBlank).reverse

/-- The part of a text from position `first` up to, not including, position `last`. -/
def part (text : List Char) (first last : Nat) : Except DirectiveFault (List Char) :=
  match byteSlice? text first last with
  | some part => .ok part
  | none => .error .splitsCharacter

/-- Reads the level from position `first` on; nothing stands for every level. -/
def readLevel (text : List Char) (first : Nat) : Except DirectiveFault Nat :=
  match dropBytes? first text with
  | none => .error .splitsCharacter
  | some [] => .ok LogLevel.trace.rank
  | some level =>
    match rank? level with
    | some rank => .ok rank
    | none => .error .malformed

/-- Reads what follows the brackets, where `next` stands at position `position`. -/
def readAfterBrackets (text : List Char) (position : Nat) :
    (next : List Char) → Except DirectiveFault Nat
  | [] => .ok LogLevel.trace.rank
  | '=' :: _ => readLevel text (position + 1)
  | _ => .error .malformed

/-- Reads the query for a field, a name with a value or without one; what follows a
second equals sign is not looked at. -/
def readField? (field : List Char) : Option FieldQuery :=
  if field.isEmpty then none
  else match splitOn '=' field with
    | [] => none
    | [name] => some ⟨String.ofList name, none⟩
    | name :: pattern :: _ =>
      if ValuePattern.isValid pattern then some ⟨String.ofList name, some (String.ofList pattern)⟩
      else none

/-- Reads a field and what follows it, where `next` stands at position `first` after the
opening brace. -/
def readFromField (text : List Char) (target span : Option String) (first : Nat)
    (next : List Char) : Except DirectiveFault LogDirective :=
  let body := next.takeWhile (· != '}')
  let last := first + byteLength body
  match next.drop body.length with
  | [] => .error .malformed
  | _ :: next =>
    (part text first last).bind fun field =>
      match readField? field, next with
      | some field, ']' :: next =>
        (readAfterBrackets text (last + 2) next).map fun rank => ⟨target, span, some field, rank⟩
      | _, _ => .error .malformed

/-- Reads a span and what follows it, where `next` stands at position `first` after the
opening bracket. A span without a name before a field is no span. -/
def readFromSpan (text : List Char) (target : Option String) (first : Nat)
    (next : List Char) : Except DirectiveFault LogDirective :=
  let body := next.takeWhile fun c => c != ']' && c != '{'
  let last := first + byteLength body
  match next.drop body.length with
  | [] => .error .malformed
  | ending :: next =>
    (part text first last).bind fun span =>
      if ending = ']' then
        (readAfterBrackets text (last + 1) next).map fun rank =>
          ⟨target, some (String.ofList span), none, rank⟩
      else
        readFromField text target (if span.isEmpty then none else some (String.ofList span))
          (last + 1) next

/-! ## Whole directives -/

/-- A character that a directive may begin with, unless it begins with a bracket. -/
def mayBegin (c : Char) : Bool := c == '-' || c == ':' || c == '_' || isAlphanumeric c

/-- Reads a directive that does not begin with a bracket. -/
def readFromTarget (text trimmed : List Char) : Except DirectiveFault LogDirective :=
  let body := trimmed.takeWhile fun c => c != '=' && c != '['
  let last := byteLength body
  match trimmed.drop body.length with
  | [] =>
    match rank? text with
    | some rank => .ok ⟨none, none, none, rank⟩
    | none => .ok ⟨some (String.ofList text), none, none, LogLevel.trace.rank⟩
  | ending :: next =>
    (part text 0 last).bind fun target =>
      if ending = '=' then
        (readLevel text (last + 1)).map fun rank => ⟨some (String.ofList target), none, none, rank⟩
      else readFromSpan text (some (String.ofList target)) (last + 1) next

/-- Reads a directive. -/
def read (text : List Char) : Except DirectiveFault LogDirective :=
  match trim text with
  | [] => .error .malformed
  | c :: next =>
    if c = '[' then readFromSpan text none 1 next
    else if mayBegin c then readFromTarget text (c :: next)
    else .error .malformed

/-! ## Events that a directive concerns -/

/-- The directive is about events wherever they lie and whatever values they have. -/
def isGeneral (directive : LogDirective) : Bool :=
  directive.span.isNone && directive.field.all (·.pattern.isNone)

/-- The event is one of those that the directive concerns. -/
def concerns (directive : LogDirective) (event : LogEvent) : Bool :=
  directive.isGeneral
    && directive.target.all (fun target => target.toList.isPrefixOf event.target.toList)
    && directive.field.all (event.hasField ·.name)

end LogDirective

end ExposureKit
