import Mathlib.Algebra.Ring.Nat
import UnitOfWork.Calendar.Layout

/-!
# Dates and times read back

Every date, time of day and timestamp is what its own text is read as: years
of any sign and any number of digits, fractions of three, six or nine digits
or none, and leap seconds.

Reading takes the items of a layout from left to right, so an item is read as
it was written if its text ends where the next one begins: the digits of a
year must not go on, nothing after a fraction may look like more of it, and
white space must be followed by something else. `Layout.Separated` says this
of all items at once.

## Main results

* `Layout.readFrom?_write`: the text of separated items is read item by item;
* `Date.read?_render`, `TimeOfDay.read?_render`, `Timestamp.read?_render`.
-/

namespace UnitOfWork.Calendar

/-! ## Decimal digits -/

/-- A text that does not begin with a digit. -/
def NoDigit (s : List Char) : Prop := ∀ c ∈ s.head?, c.isDigit = false

theorem isDigit_digitChar {n : Nat} (h : n < 10) :
    n.digitChar.isDigit = true := by
  simp [Nat.isDigit_digitChar, h]

theorem length_fixedDigits (width n : Nat) :
    (fixedDigits width n).length = width := by
  induction width generalizing n with
  | zero => rfl
  | succ width ih => simp [fixedDigits, ih]

theorem isDigit_fixedDigits {width n : Nat} :
    ∀ c ∈ fixedDigits width n, c.isDigit = true := by
  induction width generalizing n with
  | zero => simp [fixedDigits]
  | succ width ih =>
      intro c hC
      rcases List.mem_append.1 hC with hEarlier | hLast
      · exact ih c hEarlier
      · rw [List.mem_singleton.1 hLast]
        exact isDigit_digitChar (Nat.mod_lt _ (by decide))

/-- One more digit. -/
theorem digitsValue_snoc (digits : List Char) {n : Nat} (h : n < 10) :
    digitsValue (digits ++ [n.digitChar]) = 10 * digitsValue digits + n := by
  have hValue : n.digitChar.toNat - 48 = n := by
    rw [Nat.toNat_digitChar_of_lt_ten h]
    omega
  simp [digitsValue, hValue]

/-- The last digits of a number are its remainder. -/
theorem digitsValue_fixedDigits (width n : Nat) :
    digitsValue (fixedDigits width n) = n % 10 ^ width := by
  induction width generalizing n with
  | zero => simp [fixedDigits, digitsValue, Nat.mod_one]
  | succ width ih =>
      have hDigit : n % 10 < 10 := Nat.mod_lt _ (by decide)
      calc
        digitsValue (fixedDigits (width + 1) n)
            = 10 * (n / 10 % 10 ^ width) + n % 10 := by
          rw [fixedDigits, digitsValue_snoc _ hDigit, ih]
        _ = n % (10 * 10 ^ width) := by
          rw [Nat.mod_mul]
          omega
        _ = n % 10 ^ (width + 1) := by rw [Nat.pow_succ']

theorem digitsValue_toDigits (n : Nat) : digitsValue (Nat.toDigits 10 n) = n :=
  Nat.ofDigitChars_toDigits (by decide) (by decide)

/-! ## Taking digits -/

/-- Digits are taken as a whole if they are as many as may be taken, or fewer
and no other follows. -/
theorem takeDigits_append {limit : Nat} {digits rest : List Char}
    (hDigits : ∀ c ∈ digits, c.isDigit = true) (hLimit : digits.length ≤ limit)
    (hRest : digits.length < limit → NoDigit rest) :
    takeDigits limit (digits ++ rest) = (digits, rest) := by
  induction digits generalizing limit with
  | nil =>
      cases limit with
      | zero => simp [takeDigits]
      | succ limit =>
          cases rest with
          | nil => simp [takeDigits]
          | cons c rest =>
              have hC : c.isDigit = false := hRest (by simp) c (by simp)
              simp [takeDigits, hC]
  | cons c digits ih =>
      cases limit with
      | zero => simp at hLimit
      | succ limit =>
          have hC : c.isDigit = true := hDigits c (by simp)
          have hTail := ih (fun d hD => hDigits d (by simp [hD]))
            (Nat.le_of_succ_le_succ hLimit)
            (fun hLess => hRest (Nat.succ_lt_succ hLess))
          simp [takeDigits, hC, hTail]

/-- However many digits there are. -/
theorem takeDigits_all {digits rest : List Char}
    (hDigits : ∀ c ∈ digits, c.isDigit = true) (hRest : NoDigit rest) :
    takeDigits (digits.length + rest.length) (digits ++ rest) =
      (digits, rest) :=
  takeDigits_append hDigits (Nat.le_add_right ..) fun _ => hRest

/-- Digits are no white space. -/
theorem skipBlanks_digits {digits : List Char} (rest : List Char)
    (hDigits : ∀ c ∈ digits, c.isDigit = true) (hSome : digits ≠ []) :
    Text.skipBlanks (digits ++ rest) = digits ++ rest := by
  cases digits with
  | nil => exact absurd rfl hSome
  | cons c digits =>
      exact Text.skipBlanks_cons_of_not_blank
        (Text.isBlank_of_isDigit (hDigits c (by simp)))

/-- A number that is shown with all its digits. -/
theorem readNumber?_fixedDigits {width n : Nat} (rest : List Char)
    (hWidth : 0 < width) (h : n < 10 ^ width) :
    readNumber? width (fixedDigits width n ++ rest) = some (n, rest) := by
  have hLength : (fixedDigits width n).length = width := length_fixedDigits ..
  have hSome : fixedDigits width n ≠ [] := by
    intro hNil
    rw [hNil] at hLength
    exact absurd hLength.symm (Nat.ne_of_gt hWidth)
  have hTaken : takeDigits width (fixedDigits width n ++ rest) =
      (fixedDigits width n, rest) :=
    takeDigits_append isDigit_fixedDigits (by omega) (by omega)
  have hValue : digitsValue (fixedDigits width n) = n := by
    rw [digitsValue_fixedDigits, Nat.mod_eq_of_lt h]
  rw [readNumber?, skipBlanks_digits rest isDigit_fixedDigits hSome, hTaken]
  simp [hValue]

/-! ## Years -/

/-- The digits that a year is shown with. -/
theorem year_digits (n : Nat) :
    ∃ digits : List Char, digits ≠ [] ∧ (∀ c ∈ digits, c.isDigit = true) ∧
      digitsValue digits = n ∧
      (if n < 10000 then fixedDigits 4 n else Nat.toDigits 10 n) = digits := by
  by_cases hFour : n < 10000
  · refine ⟨fixedDigits 4 n, by simp [fixedDigits], isDigit_fixedDigits, ?_,
      if_pos hFour⟩
    have hPower : n < 10 ^ 4 := hFour
    rw [digitsValue_fixedDigits, Nat.mod_eq_of_lt hPower]
  · exact ⟨Nat.toDigits 10 n, Nat.toDigits_ne_nil,
      fun c hC => Nat.isDigit_of_mem_toDigits (by decide) (by decide) hC,
      digitsValue_toDigits n, if_neg hFour⟩

/-- A year is read as it was written if no digit follows. -/
theorem readYear?_writeYear (year : Int) {rest : List Char}
    (hRest : NoDigit rest) :
    readYear? (writeYear year ++ rest) = some (year, rest) := by
  obtain ⟨digits, hSome, hDigits, hValue, hShown⟩ := year_digits year.natAbs
  have hTaken := takeDigits_all hDigits hRest
  unfold writeYear
  simp only [hShown]
  by_cases hNegative : year < 0
  · have hYear : -(digitsValue digits : Int) = year := by omega
    simp [hNegative, readYear?, Text.skipBlanks, Text.isBlank, hTaken, hYear]
  · by_cases hFour : year ≤ 9999
    · have hSmall : year.natAbs < 10000 := by omega
      rw [if_pos hSmall] at hShown
      have hYear : (year.natAbs : Int) = year := by omega
      have hRead : readNumber? 4 (digits ++ rest) = some (year.natAbs, rest) :=
        hShown ▸ readNumber?_fixedDigits rest (by decide) hSmall
      have hSkip := skipBlanks_digits rest hDigits hSome
      cases digits with
      | nil => exact absurd rfl hSome
      | cons c digits =>
          have hC : c.isDigit = true := hDigits c (by simp)
          have hMinus : c ≠ '-' := by
            rintro rfl
            exact absurd hC (by decide)
          have hPlus : c ≠ '+' := by
            rintro rfl
            exact absurd hC (by decide)
          simp only [List.cons_append] at hSkip hRead
          simp [hNegative, hFour, readYear?, hSkip, hMinus, hPlus, hRead, hYear]
    · have hYear : (digitsValue digits : Int) = year := by omega
      simp [hNegative, hFour, readYear?, Text.skipBlanks, Text.isBlank, hTaken,
        hYear]

/-! ## Fractions -/

/-- Up to nine digits of a fraction count as many places. -/
theorem fractionNanos_fixedDigits {width : Nat} (h : width ≤ 9) (n : Nat) :
    fractionNanos (fixedDigits width n) =
      n % 10 ^ width * 10 ^ (9 - width) := by
  have hTake : (fixedDigits width n).take 9 = fixedDigits width n :=
    List.take_of_length_le (by rw [length_fixedDigits]; exact h)
  simp [fractionNanos, hTake, digitsValue_fixedDigits, length_fixedDigits]

/-- A fraction with a given number of digits. -/
theorem readFraction?_fixedDigits {width n : Nat} {rest : List Char}
    (hSome : 0 < width) (hMost : width ≤ 9) (h : n < 10 ^ width)
    (hRest : NoDigit rest) :
    readFraction? ('.' :: fixedDigits width n ++ rest) =
      some (n * 10 ^ (9 - width), rest) := by
  have hTaken := takeDigits_all (isDigit_fixedDigits : ∀ c ∈ fixedDigits width n,
    c.isDigit = true) hRest
  have hNil : fixedDigits width n ≠ [] := by
    intro hNil
    have hLength := length_fixedDigits width n
    rw [hNil] at hLength
    exact absurd hLength.symm (Nat.ne_of_gt hSome)
  have hValue := fractionNanos_fixedDigits hMost n
  rw [Nat.mod_eq_of_lt h] at hValue
  simp [readFraction?, hTaken, hValue]

/-- A fraction is read as it was written if what follows does not look like
more of it: neither a digit nor, where nothing is written, a point. -/
theorem readFraction?_writeFraction {nano : Nat} {rest : List Char}
    (h : nano < 1000000000) (hDigit : NoDigit rest)
    (hPoint : ∀ c ∈ rest.head?, c ≠ '.') :
    readFraction? (writeFraction nano ++ rest) = some (nano, rest) := by
  unfold writeFraction
  by_cases hZero : nano = 0
  · subst hZero
    cases rest with
    | nil => rfl
    | cons c rest =>
        have hC : c ≠ '.' := hPoint c (by simp)
        simp [readFraction?, hC]
  · by_cases hMillis : nano % 1000000 = 0
    · have hShown : nano / 1000000 * 10 ^ (9 - 3) = nano := by omega
      rw [if_neg hZero, if_pos hMillis, readFraction?_fixedDigits (by decide)
        (by decide) (by omega) hDigit, hShown]
    · by_cases hMicros : nano % 1000 = 0
      · have hShown : nano / 1000 * 10 ^ (9 - 6) = nano := by omega
        rw [if_neg hZero, if_neg hMillis, if_pos hMicros,
          readFraction?_fixedDigits (by decide) (by decide) (by omega) hDigit,
          hShown]
      · rw [if_neg hZero, if_neg hMillis, if_neg hMicros,
          readFraction?_fixedDigits (by decide) (by decide) h hDigit]
        simp

/-- A fraction that is not zero is shown. -/
theorem exists_writeFraction {nano : Nat} (h : nano ≠ 0) :
    ∃ s, writeFraction nano = '.' :: s := by
  unfold writeFraction
  rw [if_neg h]
  split_ifs <;> exact ⟨_, rfl⟩

/-! ## Items -/

/-- Fields whose numbers have as many digits as are shown of them. -/
structure Fields.Shown (fields : Fields) : Prop where
  month : fields.month < 100
  day : fields.day < 100
  hour : fields.hour < 100
  minute : fields.minute < 100
  second : fields.second < 100
  nano : fields.nano < 1000000000

/-- The fields with the number that an item shows taken from others. -/
def Item.copy (shown into : Fields) : Item → Fields
  | year => { into with year := shown.year }
  | month => { into with month := shown.month }
  | day => { into with day := shown.day }
  | hour => { into with hour := shown.hour }
  | minute => { into with minute := shown.minute }
  | second => { into with second := shown.second }
  | fraction => { into with nano := shown.nano }
  | blank | mark _ => into

/-- The text of an item ends where this one begins. -/
def Item.EndsAt (rest : List Char) : Item → Prop
  | year => NoDigit rest
  | fraction => NoDigit rest ∧ ∀ c ∈ rest.head?, c ≠ '.'
  | blank => ∀ c ∈ rest.head?, Text.isBlank c = false
  | _ => True

/-- An item is read as it was written if its text ends where the rest begins. -/
theorem Item.read?_write {item : Item} {shown : Fields} (into : Fields)
    {rest : List Char} (hShown : shown.Shown) (hEnds : item.EndsAt rest) :
    item.read? into (item.write shown ++ rest) =
      some (item.copy shown into, rest) := by
  cases item with
  | year => simp [read?, write, copy, readYear?_writeYear _ hEnds]
  | month =>
      simp [read?, write, copy, readNumber?_fixedDigits, hShown.month]
  | day => simp [read?, write, copy, readNumber?_fixedDigits, hShown.day]
  | hour => simp [read?, write, copy, readNumber?_fixedDigits, hShown.hour]
  | minute =>
      simp [read?, write, copy, readNumber?_fixedDigits, hShown.minute]
  | second =>
      simp [read?, write, copy, readNumber?_fixedDigits, hShown.second]
  | fraction =>
      simp [read?, write, copy,
        readFraction?_writeFraction hShown.nano hEnds.1 hEnds.2]
  | blank =>
      have hRest : Text.skipBlanks rest = rest := by
        cases rest with
        | nil => rfl
        | cons c rest =>
            exact Text.skipBlanks_cons_of_not_blank (hEnds c (by simp))
      have hSpace : Text.skipBlanks (' ' :: rest) = rest := by
        rw [Text.skipBlanks, if_pos (by decide), hRest]
      simp [read?, write, copy, hSpace]
  | mark c => simp [read?, write, copy]

/-! ## Layouts -/

/-- The characters of the fields in a layout. -/
abbrev Layout.chars (layout : Layout) (fields : Fields) : List Char :=
  layout.flatMap (Item.write fields)

/-- In the text of a layout, followed by a rest, every item ends where the next
one begins. -/
def Layout.Separated (fields : Fields) (rest : List Char) : Layout → Prop
  | [] => True
  | item :: layout =>
    item.EndsAt (Layout.chars layout fields ++ rest) ∧
      Layout.Separated fields rest layout

/-- The fields that a layout shows, taken from others one by one. -/
def Layout.copy (shown : Fields) (layout : Layout) (into : Fields) : Fields :=
  layout.foldl (fun into item => item.copy shown into) into

/-- The text of separated items is read item by item. -/
theorem Layout.readFrom?_write {layout : Layout} {shown : Fields}
    (into : Fields) {rest : List Char} (hShown : shown.Shown)
    (h : layout.Separated shown rest) :
    layout.readFrom? into (layout.chars shown ++ rest) =
      Layout.readFrom? [] (layout.copy shown into) rest := by
  induction layout generalizing into with
  | nil => rfl
  | cons item layout ih =>
      have hItem := Item.read?_write into hShown h.1
      rw [Layout.chars, List.flatMap_cons, List.append_assoc,
        Layout.readFrom?, hItem]
      exact ih _ h.2

/-- A text that is all of a layout's. -/
theorem Layout.read?_write {layout : Layout} {shown : Fields}
    (hShown : shown.Shown) (h : layout.Separated shown []) :
    layout.read? (layout.write shown) = some (layout.copy shown {}) := by
  have hRead := readFrom?_write {} hShown h
  rw [List.append_nil] at hRead
  rw [Layout.read?, Layout.write, String.toList_ofList, hRead]
  rfl

/-! ## The layouts in use -/

/-- Two digits begin with no white space. -/
theorem not_blank_fixedDigits (n : Nat) (rest : List Char) :
    ∀ c ∈ (fixedDigits 2 n ++ rest).head?, Text.isBlank c = false := by
  intro c hC
  have hMem : c ∈ fixedDigits 2 n := by
    simp [fixedDigits] at hC ⊢
    exact Or.inl hC.symm
  exact Text.isBlank_of_isDigit (isDigit_fixedDigits c hMem)

variable {fields : Fields} {rest : List Char}

theorem separated_date : dateLayout.Separated fields rest := by
  have hMark : ∀ s : List Char, NoDigit ('-' :: s) := by
    intro s c hC
    cases hC
    rfl
  simp [dateLayout, Layout.Separated, Item.EndsAt, Layout.chars, Item.write,
    hMark]

theorem separated_clock (fields : Fields) (rest : List Char) :
    clockLayout.Separated fields rest := by
  simp [clockLayout, Layout.Separated, Item.EndsAt]

theorem Layout.Separated.append {first second : Layout}
    (hFirst : first.Separated fields (second.chars fields ++ rest))
    (hSecond : second.Separated fields rest) :
    Layout.Separated fields rest (first ++ second) := by
  induction first with
  | nil => exact hSecond
  | cons item first ih =>
      refine ⟨?_, ih hFirst.2⟩
      have hEnds := hFirst.1
      rwa [← List.append_assoc, ← List.flatMap_append] at hEnds

theorem separated_time : timeLayout.Separated fields [] :=
  (separated_clock ..).append (by simp [Layout.Separated, Item.EndsAt, NoDigit])

/-- A date and a layout that begins with the hour, with a blank between. -/
theorem separated_moment {layout : Layout}
    (h : Layout.Separated fields rest (.hour :: layout)) :
    Layout.Separated fields rest
      (dateLayout ++ [.blank] ++ .hour :: layout) := by
  apply Layout.Separated.append _ h
  apply separated_date.append
  refine ⟨?_, trivial⟩
  simp only [Item.EndsAt, Layout.chars, List.flatMap_cons, Item.write,
    List.flatMap_nil, List.nil_append, List.append_assoc]
  exact not_blank_fixedDigits _ _

/-- A layout that leaves the fraction out reads the text of a timestamp if
there is no fraction to be read, and as what it was written for. -/
theorem read?_without_fraction (hShown : fields.Shown) :
    Layout.read? (dateLayout ++ [.blank] ++ clockLayout)
        (timestampLayout.write fields) =
      if fields.nano = 0 then some fields else none := by
  have hText : timestampLayout.chars fields =
      Layout.chars (dateLayout ++ [.blank] ++ clockLayout) fields ++
        writeFraction fields.nano := by
    simp [timestampLayout, timeLayout, Item.write]
  have hRead := Layout.readFrom?_write {} hShown
    (separated_moment (separated_clock fields (writeFraction fields.nano)))
  rw [Layout.read?, Layout.write, String.toList_ofList]
  change Layout.readFrom? _ _ (timestampLayout.chars fields) = _
  rw [hText]
  refine Eq.trans hRead ?_
  by_cases hZero : fields.nano = 0
  · obtain ⟨year, month, day, hour, minute, second, nano⟩ := fields
    cases hZero
    rfl
  · obtain ⟨s, hSome⟩ := exists_writeFraction hZero
    rw [if_neg hZero, hSome]
    rfl

end UnitOfWork.Calendar

namespace UnitOfWork

open Calendar

/-! ## Dates, times of day and timestamps -/

/-- No month has more than 31 days. -/
theorem daysInMonth_le (year : Int) (month : Nat) :
    daysInMonth year month ≤ 31 := by
  unfold daysInMonth
  grind

theorem Date.fields_shown (d : Date) : d.fields.Shown := by
  have hMonth := d.month_mem
  have hDay := d.day_mem
  have hMost := daysInMonth_le d.year d.month
  constructor <;> simp only [Date.fields] <;> omega

theorem TimeOfDay.fields_shown (t : TimeOfDay) {fields : Fields}
    (h : fields.Shown) : (t.fields fields).Shown := by
  have hHour := t.hour_lt
  have hMinute := t.minute_lt
  have hSecond := t.second_lt
  have hNano := t.nano_lt
  have hMonth := h.month
  have hDay := h.day
  constructor <;> simp only [TimeOfDay.fields] <;> omega

/-- A date is what its text is read as. -/
theorem Date.read?_render (d : Date) : Date.read? d.render = some d := by
  rw [Date.read?, Date.render,
    Layout.read?_write d.fields_shown separated_date]
  exact d.of?_parts

/-- A time of day is what its text is read as. -/
theorem TimeOfDay.read?_render (t : TimeOfDay) :
    TimeOfDay.read? t.render = some t := by
  have hShown : t.fields.Shown :=
    t.fields_shown ⟨by decide, by decide, by decide, by decide, by decide,
      by decide⟩
  rw [TimeOfDay.read?, TimeOfDay.render,
    Layout.read?_write hShown separated_time]
  exact t.ofFields?_fields {}

/-- A timestamp is what its text is read as. The layout that is tried first
has no fraction: it fits only a text without one, and reads that one right. -/
theorem Timestamp.read?_render (t : Timestamp) :
    Timestamp.read? t.render = some t := by
  have hShown : (t.time.fields t.date.fields).Shown :=
    t.time.fields_shown t.date.fields_shown
  have hOf := t.ofFields?_fields
  unfold Timestamp.render
  generalize t.time.fields t.date.fields = shown at hShown hOf
  have hWhole : timestampLayout.read? (timestampLayout.write shown) =
      some shown := Layout.read?_write hShown (separated_moment separated_time)
  have hFirst := read?_without_fraction hShown
  by_cases hZero : shown.nano = 0
  · simp only [Timestamp.read?, timestampLayouts, List.findSome?_cons, hFirst,
      if_pos hZero, Option.bind_some, hOf]
  · simp only [Timestamp.read?, timestampLayouts, List.findSome?_cons, hFirst,
      if_neg hZero, Option.bind_none, hWhole, Option.bind_some, hOf]

end UnitOfWork
