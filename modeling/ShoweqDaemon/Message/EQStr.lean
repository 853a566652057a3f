/-
  Format strings: `EQStr::formatMessage`.

  The arguments come as texts with a NUL behind each. First the templates (%T1) of the format string
  are replaced by the strings that the arguments number, then the placeholders (%1) by the arguments.
  Each of the two loops rewrites the string in place and matches again from where it is; the loops
  have no bound of their own, so here they take one.

  The positions in a `QString` count UTF-16 units. What the loops rewrite is therefore a list of
  units; the texts of the table and of the buffer are characters until they are inserted.
-/
import ShoweqDaemon.Lib.Utf16
import ShoweqDaemon.Spawn.Item

namespace ShoweqDaemon.Messages

open Spawns (QString)
open Utf16 (encode decode beginsLow)

/-! ## Strings -/

/-- A unit of a `QString`. -/
abbrev QChar := UInt16

/-- `QString::replace(position, n, after)` -/
def replace (s : List QChar) (position n : ℕ) (after : List QChar) : List QChar :=
  s.take position ++ after ++ s.drop (position + n)

/-- The number that the digits of a text are. -/
def number (digits : QString) : ℕ := digits.foldl (fun n c => n * 10 + (c.toNat - 48)) 0

/-- `QChar::isSpace` -/
def isSpace (c : Char) : Bool :=
  let n := c.toNat
  c = ' ' || (9 ≤ n && n ≤ 13) || (0x2000 ≤ n && n ≤ 0x200a) ||
    n ∈ [0x85, 0xa0, 0x1680, 0x2028, 0x2029, 0x202f, 0x205f, 0x3000]

/-- `QString::toInt`: a number with an optional sign, space around it ignored. -/
def toInt (s : QString) : Option Int32 :=
  let (negative, digits) :=
    match Numeral.trim isSpace s with
    | '-' :: digits => (true, digits)
    | '+' :: digits => (false, digits)
    | digits => (false, digits)
  let n : ℤ := if negative then -(number digits : ℤ) else number digits
  if digits ≠ [] ∧ digits.all Char.isDigit = true ∧ -2147483648 ≤ n ∧ n ≤ 2147483647 then
    some (Int32.ofInt n)
  else none

/-! ## The regular expressions -/

/-- The texts that the two expressions begin with: `%T` and `%`. -/
def templateMarker : List QChar := [0x25, 0x54]

/-- And the mark of the second one. -/
def argumentMarker : List QChar := [0x25]

example : templateMarker = encode "%T".toList ∧ argumentMarker = encode "%".toList := by decide

/-- A unit that `\d` matches: an ASCII digit, as the option for Unicode properties is not set. -/
def isDigit (u : QChar) : Bool := 0x30 ≤ u && u ≤ 0x39

/-- `captured(1).toInt()` of up to three digits. -/
def capturedNumber (digits : List QChar) : ℕ := digits.foldl (fun n u => n * 10 + (u.toNat - 48)) 0

/-- The digits behind the marker, up to three, if the text begins with a placeholder. -/
def digitsAt (marker s : List QChar) : List QChar :=
  if marker <+: s then ((s.drop marker.length).takeWhile isDigit).take 3 else []

/-- Where the first placeholder begins, and its digits. -/
def findPlaceholder (marker : List QChar) : List QChar → Option (ℕ × List QChar)
  | [] => none
  | c :: cs =>
      if digitsAt marker (c :: cs) ≠ [] then some (0, digitsAt marker (c :: cs))
      else (findPlaceholder marker cs).map fun found => (found.1 + 1, found.2)

/-- The search in a text that stands behind an offset. An offset within a surrogate pair is an
    error of the matcher, and there is no match then. -/
def search (marker s : List QChar) : Option (ℕ × List QChar) :=
  if beginsLow s then none else findPlaceholder marker s

/-- A match, by its digits. -/
structure QRegularExpressionMatch where
  capturedStart : ℕ
  captured : List QChar

/-- `rx.match(subject, offset)` for the marker with one to three digits behind it. The subject is
    always well formed: it is put together from texts that are, at ASCII characters. -/
def rxMatch (marker subject : List QChar) (offset : ℕ) : Option QRegularExpressionMatch :=
  (search marker (subject.drop offset)).map fun found =>
    { capturedStart := offset + found.1 + marker.length, captured := found.2 }

/-! ## The arguments -/

/-- The texts up to the padding, that begins with an empty one. `bytes` are those of the text that
    was begun. -/
def argList (fromUtf8 : List UInt8 → QString) (bytes : List UInt8) : List UInt8 → List QString
  | [] => if bytes = [] then [] else [fromUtf8 bytes]
  | p :: ps =>
      if p = 0 then
        if bytes = [] then [] else fromUtf8 bytes :: argList fromUtf8 [] ps
      else argList fromUtf8 (bytes ++ [p]) ps

/-- `args[index]`, an error for an index that is none of the list. -/
def argAt (args : List QString) (index : ℤ) : Except ℤ QString :=
  if 0 ≤ index then
    match args[index.toNat]? with
    | some arg => .ok arg
    | none => .error index
  else .error index

/-- A spell name comes with fields before it and an apostrophe. -/
def spellName (arg : QString) : QString :=
  if '^' ∈ arg then
    let sub := (arg.reverse.takeWhile (· ≠ '^')).reverse
    if "'".toList <+: sub then sub.drop 1 else sub
  else arg

/-! ## The loops -/

/-- The rewriting of a format string from an offset, with what to put in place of a placeholder by
    its number. Where there is nothing, the placeholder goes and as much behind it is skipped. -/
def substLoop (marker : List QChar) (text : ℕ → Except ℤ (Option (List QChar))) :
    ℕ → List QChar → ℕ → Option (Except ℤ (List QChar))
  | 0, _, _ => none
  | fuel + 1, formatString, offset =>
      match rxMatch marker formatString offset with
      | none => some (.ok formatString)
      | some found =>
          let curPos := found.capturedStart
          let position := curPos - marker.length
          let n := found.captured.length + marker.length
          match text (capturedNumber found.captured) with
          | .error index => some (.error index)
          | .ok (some after) =>
              substLoop marker text fuel (replace formatString position n after) curPos
          | .ok none =>
              substLoop marker text fuel (replace formatString position n [])
                (curPos + found.captured.length)

/-- `EQStr`: the texts by their ids. -/
structure EQStr where
  m_messageStrings : Int32 → Option QString

namespace EQStr

variable (eqStr : EQStr)

/-- `m_messageStrings.value(id, QString())` -/
def value (id : Int32) : QString := (eqStr.m_messageStrings id).getD []

/-- The string whose number the argument is, if it is not empty. -/
def templateText (args : List QString) (substArg : ℕ) : Except ℤ (Option (List QChar)) :=
  if substArg ≤ args.length then
    match argAt args ((substArg : ℤ) - 1) with
    | .error index => .error index
    | .ok arg =>
        match toInt arg with
        | some id => .ok (if eqStr.value id = [] then none else some (encode (eqStr.value id)))
        | none => .ok none
  else .ok none

/-- The text for a number that was found behind `%`: the argument in that place, if there are as
    many. -/
def argumentText (args : List QString) (substArg : ℕ) : Except ℤ (Option (List QChar)) :=
  if substArg ≤ args.length then
    match argAt args ((substArg : ℤ) - 1) with
    | .error index => .error index
    | .ok arg => .ok (some (encode (spellName arg)))
  else .ok none

/-- The loop over `%T(\d{1,3})`. -/
def templateLoop (args : List QString) :
    ℕ → List QChar → ℕ → Option (Except ℤ (List QChar)) :=
  substLoop templateMarker (eqStr.templateText args)

/-- The loop over `%(\d{1,3})`. -/
def argumentLoop (args : List QString) :
    ℕ → List QChar → ℕ → Option (Except ℤ (List QChar)) :=
  substLoop argumentMarker (argumentText args)

/-- A number in hexadecimal, with four digits at least. -/
def hex4 (n : UInt32) : QString :=
  let digits := Nat.toDigits 16 n.toNat
  List.replicate (4 - digits.length) '0' ++ digits

section
variable (fromUtf8 : List UInt8 → QString)

/-- `formatMessage`, with a bound for the loops: `none` if it is not enough, and the index if an
    index is none of the argument list. The message is the units of the `QString`. -/
def formatMessage (fuel : ℕ) (formatid : UInt32) (arguments : List UInt8) :
    Option (Except ℤ (List QChar)) :=
  let formatStringRes := eqStr.value formatid.toInt32
  let args := argList fromUtf8 [] arguments
  if formatStringRes = [] then
    some (.ok (encode ("Unknown: ".toList ++ hex4 formatid ++ ":".toList ++
      args.flatMap fun arg => " ".toList ++ arg)))
  else
    match eqStr.templateLoop args fuel (encode formatStringRes) 0 with
    | none => none
    | some (.error index) => some (.error index)
    | some (.ok formatString) => argumentLoop args fuel formatString 0

end

end EQStr

end ShoweqDaemon.Messages
