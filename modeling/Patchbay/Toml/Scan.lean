/-!
# Scanning TOML text

The characters of TOML and its four kinds of string. A scanner takes what it recognises from the
front of a list of characters and answers with it and the rest, or with nothing.
-/
namespace Patchbay.Toml

/-- A scanner of values of type `α`. -/
abbrev Scan (α : Type) := List Char → Option (α × List Char)

def isBlank (c : Char) : Bool := c = ' ' || c = '\t'

def isDigit (c : Char) : Bool := '0' ≤ c && c ≤ '9'

def isHexDigit (c : Char) : Bool :=
  isDigit c || ('a' ≤ c && c ≤ 'f') || ('A' ≤ c && c ≤ 'F')

/-- The value of a hexadecimal digit. -/
def hexValue (c : Char) : Nat :=
  if isDigit c then c.toNat - 48 else if 'a' ≤ c then c.toNat - 87 else c.toNat - 55

/-- Characters that comments and strings may hold: no control character but the tab. -/
def isPlain (c : Char) : Bool :=
  c = '\t' || (' ' ≤ c && c ≠ '\x7f')

def isBareKey (c : Char) : Bool :=
  isDigit c || ('a' ≤ c && c ≤ 'z') || ('A' ≤ c && c ≤ 'Z') || c = '-' || c = '_'

def skipBlanks (cs : List Char) : List Char := cs.dropWhile isBlank

/-- The rest after a line break, if there is one here. -/
def newline? : List Char → Option (List Char)
  | '\n' :: r => some r
  | '\r' :: '\n' :: r => some r
  | _ => none

/-- The rest after a comment, or all if there is none. -/
def skipComment : List Char → List Char
  | '#' :: r => r.dropWhile isPlain
  | cs => cs

/-- The end of a line: blanks, a comment, and a line break or the end of the text. -/
def lineEnd? (cs : List Char) : Option (List Char) :=
  match skipComment (skipBlanks cs) with
  | [] => some []
  | r => newline? r

/-- Skips blanks, line breaks and comments. -/
def skipLines : List Char → List Char
  | [] => []
  | '#' :: r => comment r
  | '\n' :: r => skipLines r
  | '\r' :: '\n' :: r => skipLines r
  | c :: r => if isBlank c then skipLines r else c :: r
where
  /-- Skips to the end of a comment and goes on. -/
  comment : List Char → List Char
    | [] => []
    | '\n' :: r => skipLines r
    | '\r' :: '\n' :: r => skipLines r
    | c :: r => if isPlain c then comment r else c :: r

/-- Skips blanks and line breaks. -/
def skipSpace : List Char → List Char
  | [] => []
  | '\n' :: r => skipSpace r
  | '\r' :: '\n' :: r => skipSpace r
  | c :: r => if isBlank c then skipSpace r else c :: r

/-- The character with this code, unless it is a surrogate or too large. -/
def scalar? (n : Nat) : Option Char :=
  if h : n.isValidChar then some (Char.ofNatAux n h) else none

/-- The character of `n` hexadecimal digits. -/
def hexEscape (n : Nat) : Scan Char := fun cs =>
  let digits := cs.take n
  if digits.length = n && digits.all isHexDigit then
    (scalar? (digits.foldl (fun a c => a * 16 + hexValue c) 0)).map (·, cs.drop n)
  else none

/-- What follows a backslash in a string. -/
def escape : Scan Char
  | 'b' :: r => some ('\x08', r)
  | 't' :: r => some ('\t', r)
  | 'n' :: r => some ('\n', r)
  | 'f' :: r => some ('\x0c', r)
  | 'r' :: r => some ('\r', r)
  | '"' :: r => some ('"', r)
  | '\\' :: r => some ('\\', r)
  | 'u' :: r => hexEscape 4 r
  | 'U' :: r => hexEscape 8 r
  | _ => none

/-- The rest of a string in double quotes; `done` is what was read, last first. -/
def quoted (fuel : Nat) (done : List Char) : Scan String
  | '"' :: r => some (String.ofList done.reverse, r)
  | '\\' :: r =>
    match fuel, escape r with
    | fuel + 1, some (c, r) => quoted fuel (c :: done) r
    | _, _ => none
  | c :: r =>
    match fuel with
    | fuel + 1 => if isPlain c then quoted fuel (c :: done) r else none
    | 0 => none
  | [] => none
termination_by fuel

/-- The rest of a string in single quotes. -/
def literal (done : List Char) : Scan String
  | '\'' :: r => some (String.ofList done.reverse, r)
  | c :: r => if isPlain c then literal (c :: done) r else none
  | [] => none

/-- Closes a string of several lines at a run of `n` quotes: up to two of them belong to it. -/
def closing? (n : Nat) : Option Nat :=
  if 3 ≤ n && n ≤ 5 then some (n - 3) else none

/-- The rest of a string in three double quotes. A backslash before a line break removes the
break and all blanks and breaks after it. -/
def quotedLines (fuel : Nat) (done : List Char) (cs : List Char) : Option (String × List Char) :=
  match fuel with
  | 0 => none
  | fuel + 1 =>
    match cs with
    | [] => none
    | '"' :: r =>
      let n := 1 + (r.takeWhile (· = '"')).length
      let rest := r.dropWhile (· = '"')
      if n < 3 then quotedLines fuel (List.replicate n '"' ++ done) rest
      else (closing? n).map fun k => (String.ofList (List.replicate k '"' ++ done).reverse, rest)
    | '\\' :: r =>
      match newline? (skipBlanks r) with
      | some rest => quotedLines fuel done (skipSpace rest)
      | none =>
        match escape r with
        | some (c, rest) => quotedLines fuel (c :: done) rest
        | none => none
    | c :: r =>
      match newline? (c :: r) with
      | some rest => quotedLines fuel ('\n' :: done) rest
      | none => if isPlain c then quotedLines fuel (c :: done) r else none

/-- The rest of a string in three single quotes. -/
def literalLines (fuel : Nat) (done : List Char) (cs : List Char) : Option (String × List Char) :=
  match fuel with
  | 0 => none
  | fuel + 1 =>
    match cs with
    | [] => none
    | '\'' :: r =>
      let n := 1 + (r.takeWhile (· = '\'')).length
      let rest := r.dropWhile (· = '\'')
      if n < 3 then literalLines fuel (List.replicate n '\'' ++ done) rest
      else (closing? n).map fun k => (String.ofList (List.replicate k '\'' ++ done).reverse, rest)
    | c :: r =>
      match newline? (c :: r) with
      | some rest => literalLines fuel ('\n' :: done) rest
      | none => if isPlain c then literalLines fuel (c :: done) r else none

/-- The text without a line break at its front. -/
def dropNewline (cs : List Char) : List Char := (newline? cs).getD cs

/-- A string of one line. -/
def lineString : Scan String
  | '"' :: r => quoted r.length [] r
  | '\'' :: r => literal [] r
  | _ => none

/-- A string of any kind. -/
def anyString : Scan String
  | '"' :: '"' :: '"' :: r => quotedLines (r.length + 1) [] (dropNewline r)
  | '\'' :: '\'' :: '\'' :: r => literalLines (r.length + 1) [] (dropNewline r)
  | cs => lineString cs

end Patchbay.Toml
