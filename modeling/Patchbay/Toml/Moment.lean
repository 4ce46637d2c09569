import Patchbay.Toml.Number

/-!
# Dates and times of TOML

A moment is a date, a time of day, or both with an offset from universal time. Its text has one
form whatever was read: `T` between date and time, `Z` for no offset, and no zeros at the end
of a fraction.
-/
namespace Patchbay.Toml

structure Date where
  year : Nat
  month : Nat
  day : Nat
deriving DecidableEq, Repr

structure TimeOfDay where
  hour : Nat
  minute : Nat
  second : Nat
  nanosecond : Nat
deriving DecidableEq, Repr

inductive Offset where
  | universal
  | minutes (n : Int)
deriving DecidableEq, Repr

structure Moment where
  date : Option Date
  time : Option TimeOfDay
  offset : Option Offset
deriving DecidableEq, Repr

/-- Exactly `n` decimal digits. -/
def fixedDigits (n : Nat) : Scan Nat := fun cs =>
  let ds := cs.take n
  if ds.length = n && ds.all isDigit then some (ofDigits 10 ds, cs.drop n) else none

def isLeap (year : Nat) : Bool :=
  (year % 4 = 0 && year % 100 ≠ 0) || year % 400 = 0

def daysIn (year month : Nat) : Nat :=
  if month = 2 then if isLeap year then 29 else 28
  else if month = 4 || month = 6 || month = 9 || month = 11 then 30
  else 31

/-- A number of two digits between two bounds. -/
def ranged (low high : Nat) : Scan Nat := fun cs => do
  let (n, r) ← fixedDigits 2 cs
  if low ≤ n && n ≤ high then pure (n, r) else none

def expect (c : Char) : List Char → Option (List Char)
  | d :: r => if c = d then some r else none
  | [] => none

def date : Scan Date := fun cs => do
  let (year, r) ← fixedDigits 4 cs
  let r ← expect '-' r
  let (month, r) ← ranged 1 12 r
  let r ← expect '-' r
  let (day, r) ← ranged 1 31 r
  if day ≤ daysIn year month then pure (⟨year, month, day⟩, r) else none

/-- The first nine digits of a fraction of a second. -/
def nanoseconds (cs : List Char) : Option (Nat × List Char) :=
  match cs with
  | '.' :: r =>
    let ds := r.takeWhile isDigit
    if ds.isEmpty then some (0, cs)
    else
      let kept := ds.take 9
      some (ofDigits 10 kept * Nat.pow 10 (9 - kept.length), r.dropWhile isDigit)
  | _ => some (0, cs)

def timeOfDay : Scan TimeOfDay := fun cs => do
  let (hour, r) ← ranged 0 23 cs
  let r ← expect ':' r
  let (minute, r) ← ranged 0 59 r
  let r ← expect ':' r
  let (second, r) ← ranged 0 60 r
  let (nano, r) ← nanoseconds r
  pure (⟨hour, minute, second, nano⟩, r)

/-- An offset; a sign must be followed by hours and minutes. -/
def offset : List Char → Option (Option Offset × List Char)
  | 'Z' :: r | 'z' :: r => some (some .universal, r)
  | c :: r =>
    if c = '+' || c = '-' then do
      let (hour, r) ← ranged 0 23 r
      let r ← expect ':' r
      let (minute, r) ← ranged 0 59 r
      let n : Int := hour * 60 + minute
      pure (some (.minutes (if c = '-' then -n else n)), r)
    else some (none, c :: r)
  | [] => some (none, [])

/-- A moment; nothing here if the text does not begin like one. -/
def moment (cs : List Char) : Option (Option Moment × List Char) :=
  match fixedDigits 4 cs with
  | some (_, '-' :: _) => do
    let (d, r) ← date cs
    let dateOnly : Option (Option Moment × List Char) := some (some ⟨some d, none, none⟩, r)
    match r with
    | c :: t =>
      if c = 'T' || c = 't' || c = ' ' then
        match timeOfDay t with
        | none => dateOnly
        | some (time, t) => do
          let (o, t) ← offset t
          pure (some ⟨some d, some time, o⟩, t)
      else dateOnly
    | [] => dateOnly
  | _ =>
    match fixedDigits 2 cs with
    | some (_, ':' :: _) => do
      let (time, r) ← timeOfDay cs
      pure (some ⟨none, some time, none⟩, r)
    | _ => some (none, cs)

/-- A number with leading zeros. -/
def padded (width n : Nat) : String :=
  let s := toString n
  String.ofList (List.replicate (width - s.length) '0') ++ s

def Date.toText (d : Date) : String :=
  padded 4 d.year ++ "-" ++ padded 2 d.month ++ "-" ++ padded 2 d.day

def TimeOfDay.toText (t : TimeOfDay) : String :=
  let whole := padded 2 t.hour ++ ":" ++ padded 2 t.minute ++ ":" ++ padded 2 t.second
  if t.nanosecond = 0 then whole
  else
    let places := (padded 9 t.nanosecond).toList.reverse.dropWhile (· = '0')
    whole ++ "." ++ String.ofList places.reverse

def Offset.toText : Offset → String
  | universal => "Z"
  | minutes n =>
    let sign := if n < 0 then "-" else "+"
    sign ++ padded 2 (n.natAbs / 60) ++ ":" ++ padded 2 (n.natAbs % 60)

def Moment.toText (m : Moment) : String :=
  let date := (m.date.map Date.toText).getD ""
  let between := if m.date.isSome && m.time.isSome then "T" else ""
  date ++ between ++ (m.time.map TimeOfDay.toText).getD "" ++ (m.offset.map Offset.toText).getD ""

end Patchbay.Toml
