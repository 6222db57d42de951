import UnitOfWork.Calendar.Date
import UnitOfWork.Text.Blank

/-!
# Layouts of dates and times

A layout is a list of items, and one list serves both ways: `Layout.write`
shows the fields of a date or time in that order, and `Layout.read?` takes
them from a text in that order.

Writing is fixed: a year has four digits, and a sign as well outside
`0 … 9999`; the other numbers have two; a fraction of a second is left out, or
has the fewest of three, six or nine digits that are exact; a leap second is
shown as second 60.

Reading is lenient: a number may be preceded by white space and may have fewer
digits, a blank stands for any white space or none, a fraction may have any
number of digits (those after the ninth are dropped) or be absent, and a year
with a sign any number of digits. Second 60 is read as a leap second.
-/

namespace UnitOfWork.Calendar

/-! ## Fields and items -/

/-- The numbers that a date and a time consist of; the seconds count to 60. -/
structure Fields where
  year : Int := 0
  month : Nat := 1
  day : Nat := 1
  hour : Nat := 0
  minute : Nat := 0
  second : Nat := 0
  nano : Nat := 0
deriving DecidableEq

/-- One item of a layout. -/
inductive Item
  | year | month | day | hour | minute | second
  /-- A decimal point with the fraction of the second. -/
  | fraction
  /-- White space between two parts. -/
  | blank
  /-- A character that stands for itself. -/
  | mark (c : Char)
deriving DecidableEq

/-- A layout: its items from left to right. -/
abbrev Layout := List Item

/-! ## Decimal digits -/

/-- The value of a string of decimal digits. -/
def digitsValue (digits : List Char) : Nat :=
  digits.foldl (fun n c => 10 * n + (c.toNat - 48)) 0

/-- The last `width` decimal digits of a number. -/
def fixedDigits : Nat → Nat → List Char
  | 0, _ => []
  | width + 1, n => fixedDigits width (n / 10) ++ [Nat.digitChar (n % 10)]

/-- At most `limit` leading digits of a text, and the rest. -/
def takeDigits : Nat → List Char → List Char × List Char
  | limit + 1, c :: rest =>
    if c.isDigit then
      let taken := takeDigits limit rest
      (c :: taken.1, taken.2)
    else ([], c :: rest)
  | _, s => ([], s)

/-! ## Writing -/

/-- A year: four digits, with a sign outside `0 … 9999`. -/
def writeYear (year : Int) : List Char :=
  let digits (n : Nat) : List Char :=
    if n < 10000 then fixedDigits 4 n else Nat.toDigits 10 n
  if year < 0 then '-' :: digits year.natAbs
  else if year ≤ 9999 then digits year.natAbs
  else '+' :: digits year.natAbs

/-- A fraction of a second in nanoseconds: nothing, or a point with the fewest
of three, six or nine digits that show it exactly. -/
def writeFraction (nano : Nat) : List Char :=
  if nano = 0 then []
  else if nano % 1000000 = 0 then '.' :: fixedDigits 3 (nano / 1000000)
  else if nano % 1000 = 0 then '.' :: fixedDigits 6 (nano / 1000)
  else '.' :: fixedDigits 9 nano

/-- The text of one item. -/
def Item.write (fields : Fields) : Item → List Char
  | year => writeYear fields.year
  | month => fixedDigits 2 fields.month
  | day => fixedDigits 2 fields.day
  | hour => fixedDigits 2 fields.hour
  | minute => fixedDigits 2 fields.minute
  | second => fixedDigits 2 fields.second
  | fraction => writeFraction fields.nano
  | blank => [' ']
  | mark c => [c]

/-- The text of the fields in a layout. -/
def Layout.write (layout : Layout) (fields : Fields) : String :=
  String.ofList (layout.flatMap (Item.write fields))

/-! ## Reading -/

/-- A number of at most `limit` digits, after any white space. -/
def readNumber? (limit : Nat) (s : List Char) : Option (Nat × List Char) :=
  match takeDigits limit (Text.skipBlanks s) with
  | ([], _) => none
  | (digits, rest) => some (digitsValue digits, rest)

/-- A year, after any white space: four digits at most, or a sign and any
number of digits. -/
def readYear? (s : List Char) : Option (Int × List Char) :=
  let signed (sign : Int) (rest : List Char) : Option (Int × List Char) :=
    match takeDigits rest.length rest with
    | ([], _) => none
    | (digits, rest) => some (sign * digitsValue digits, rest)
  match Text.skipBlanks s with
  | '-' :: rest => signed (-1) rest
  | '+' :: rest => signed 1 rest
  | rest => (readNumber? 4 rest).map fun (n, rest) => ((n : Int), rest)

/-- The nanoseconds that a string of fraction digits stands for. -/
def fractionNanos (digits : List Char) : Nat :=
  let used := digits.take 9
  digitsValue used * Nat.pow 10 (9 - used.length)

/-- A fraction of a second: absent, or a point with at least one digit. -/
def readFraction? : List Char → Option (Nat × List Char)
  | '.' :: rest =>
    match takeDigits rest.length rest with
    | ([], _) => none
    | (digits, rest) => some (fractionNanos digits, rest)
  | s => some (0, s)

/-- Reads one item into the fields. -/
def Item.read? (fields : Fields) (s : List Char) :
    Item → Option (Fields × List Char)
  | year => (readYear? s).map fun (n, rest) => ({ fields with year := n }, rest)
  | month =>
    (readNumber? 2 s).map fun (n, rest) => ({ fields with month := n }, rest)
  | day =>
    (readNumber? 2 s).map fun (n, rest) => ({ fields with day := n }, rest)
  | hour =>
    (readNumber? 2 s).map fun (n, rest) => ({ fields with hour := n }, rest)
  | minute =>
    (readNumber? 2 s).map fun (n, rest) => ({ fields with minute := n }, rest)
  | second =>
    (readNumber? 2 s).map fun (n, rest) => ({ fields with second := n }, rest)
  | fraction =>
    (readFraction? s).map fun (n, rest) => ({ fields with nano := n }, rest)
  | blank => some (fields, Text.skipBlanks s)
  | mark c =>
    match s with
    | d :: rest => if c = d then some (fields, rest) else none
    | [] => none

/-- Reads the items of a layout; nothing of the text may remain. -/
def Layout.readFrom? : Layout → Fields → List Char → Option Fields
  | [], fields, [] => some fields
  | [], _, _ :: _ => none
  | item :: layout, fields, s =>
    match item.read? fields s with
    | some (fields, rest) => Layout.readFrom? layout fields rest
    | none => none

/-- The fields that a text in a layout stands for. -/
def Layout.read? (layout : Layout) (s : String) : Option Fields :=
  Layout.readFrom? layout {} s.toList

/-! ## The layouts in use -/

/-- Year, month and day. -/
def dateLayout : Layout := [.year, .mark '-', .month, .mark '-', .day]

/-- Hour, minute and second. -/
def clockLayout : Layout := [.hour, .mark ':', .minute, .mark ':', .second]

/-- A time of day with its fraction. -/
def timeLayout : Layout := clockLayout ++ [.fraction]

/-- A timestamp as it is written. -/
def timestampLayout : Layout := dateLayout ++ [.blank] ++ timeLayout

/-- The layouts a timestamp is read in, in the order they are tried. -/
def timestampLayouts : List Layout :=
  [dateLayout ++ [.blank] ++ clockLayout,
   timestampLayout,
   dateLayout ++ [.mark 'T'] ++ timeLayout]

end UnitOfWork.Calendar

namespace UnitOfWork

open Calendar (Fields)

/-! ## Dates, times and timestamps as text -/

/-- The date among the fields, if it exists. -/
def Date.ofFields? (fields : Fields) : Option Date :=
  Date.of? fields.year fields.month fields.day

/-- The time of day among the fields; second 60 is a leap second. -/
def TimeOfDay.ofFields? (fields : Fields) : Option TimeOfDay :=
  if fields.second = 60 then
    TimeOfDay.of? fields.hour fields.minute 59 (1000000000 + fields.nano)
  else TimeOfDay.of? fields.hour fields.minute fields.second fields.nano

/-- The fields of a date, at midnight. -/
def Date.fields (d : Date) : Fields :=
  { year := d.year, month := d.month, day := d.day }

/-- The given fields with those of a time of day. -/
def TimeOfDay.fields (t : TimeOfDay) (fields : Fields := {}) : Fields :=
  { fields with
    hour := t.hour
    minute := t.minute
    second := t.second + t.nano / 1000000000
    nano := t.nano % 1000000000 }

/-- The text of a date. -/
def Date.render (d : Date) : String := Calendar.dateLayout.write d.fields

/-- The text of a time of day. -/
def TimeOfDay.render (t : TimeOfDay) : String :=
  Calendar.timeLayout.write t.fields

/-- The text of a timestamp. -/
def Timestamp.render (t : Timestamp) : String :=
  Calendar.timestampLayout.write (t.time.fields t.date.fields)

/-- The date that a text stands for. -/
def Date.read? (s : String) : Option Date :=
  (Calendar.dateLayout.read? s).bind Date.ofFields?

/-- The time of day that a text stands for. -/
def TimeOfDay.read? (s : String) : Option TimeOfDay :=
  (Calendar.timeLayout.read? s).bind TimeOfDay.ofFields?

/-- The timestamp among the fields. -/
def Timestamp.ofFields? (fields : Fields) : Option Timestamp :=
  match Date.ofFields? fields, TimeOfDay.ofFields? fields with
  | some date, some time => some ⟨date, time⟩
  | _, _ => none

/-- The timestamp that a text stands for in the first layout that fits. -/
def Timestamp.read? (s : String) : Option Timestamp :=
  Calendar.timestampLayouts.findSome? fun layout =>
    (layout.read? s).bind Timestamp.ofFields?

/-- The fields of a time of day stand for that time. -/
theorem TimeOfDay.ofFields?_fields (t : TimeOfDay) (fields : Fields) :
    TimeOfDay.ofFields? (t.fields fields) = some t := by
  obtain ⟨hour, minute, second, nano, hHour, hMinute, hSecond, hNano⟩ := t
  by_cases hLeap : nano < 1000000000
  · have hDiv : nano / 1000000000 = 0 := by omega
    have hMod : nano % 1000000000 = nano := by omega
    have hNot : second ≠ 60 := by omega
    simp [TimeOfDay.ofFields?, TimeOfDay.fields, hDiv, hMod, hNot,
      TimeOfDay.of?, hHour, hMinute, hSecond, hLeap]
  · obtain ⟨rfl, hBound⟩ : second = 59 ∧ nano < 2000000000 := by omega
    have hDiv : nano / 1000000000 = 1 := by omega
    have hMod : 1000000000 + nano % 1000000000 = nano := by omega
    simp [TimeOfDay.ofFields?, TimeOfDay.fields, hDiv, hMod, TimeOfDay.of?,
      hHour, hMinute, hBound]

/-- The fields of a timestamp stand for that timestamp. -/
theorem Timestamp.ofFields?_fields (t : Timestamp) :
    Timestamp.ofFields? (t.time.fields t.date.fields) = some t := by
  have hDate : Date.ofFields? (t.time.fields t.date.fields) = some t.date :=
    t.date.of?_parts
  simp [Timestamp.ofFields?, hDate, TimeOfDay.ofFields?_fields]

end UnitOfWork
