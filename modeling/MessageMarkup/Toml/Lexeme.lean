import MessageMarkup.Integer64
import MessageMarkup.Settings.Value

/-!
# Keys, strings, numbers and dates of TOML

Readers of the smallest parts of a TOML text. Each takes the text from the part on and returns what
it has read with the text behind it. A date or a time is a setting like a text, in its usual
notation.
-/

namespace MessageMarkup.Toml

/-- Why a text is not TOML. -/
inductive Fault where
  /-- Something else stands where a key should. -/
  | badKey
  /-- A string that is not closed or has characters that no string has. -/
  | badString
  /-- A backslash before something that it gives no meaning. -/
  | badEscape
  /-- A number that is not written well or out of range. -/
  | badNumber
  /-- A date or time that is not written well or does not exist. -/
  | badDate
  /-- Something else stands where a value should. -/
  | badValue
  /-- A list or a table that is not closed or not divided well. -/
  | badSequence
  /-- A line that does not end where it should, or has characters that no line has. -/
  | badLine
  /-- A key or table that has been defined before. -/
  | defined (key : String)
  /-- Values or keys nested too deep. -/
  | tooDeep
  deriving DecidableEq, Repr, Inhabited

/-! ## Blanks and lines -/

/-- The text after the blanks at its start. -/
def afterBlanks (cs : List Char) : List Char :=
  cs.dropWhile fun c => c == ' ' || c == '\t'

/-- The text after a line break, if it starts with one. -/
def afterBreak? : List Char → Option (List Char)
  | '\n' :: cs | '\r' :: '\n' :: cs => some cs
  | _ => none

/-- Whether a character may stand in a comment, and with other restrictions in a string. -/
def isPlain (c : Char) : Bool :=
  c == '\t' || (0x20 ≤ c.toNat && c.toNat != 0x7F)

/-- The text after a comment, if it starts with one. -/
def afterComment (cs : List Char) : List Char :=
  match cs with
  | '#' :: rest => rest.dropWhile isPlain
  | cs => cs

/-- The text after the end of a line, which blanks and a comment may come before. -/
def afterLine (cs : List Char) : Except Fault (List Char) :=
  match afterComment (afterBlanks cs) with
  | [] => .ok []
  | cs =>
    match afterBreak? cs with
    | some cs => .ok cs
    | none => .error .badLine

/-- The text after blanks, comments and line breaks, in at most so many steps. A comment ends with
its line. -/
def afterFiller : Nat → List Char → Except Fault (List Char)
  | 0, cs => .ok cs
  | steps + 1, cs =>
    match afterBlanks cs with
    | '#' :: rest =>
      match afterBreak? (rest.dropWhile isPlain) with
      | some cs => afterFiller steps cs
      | none => .error .badLine
    | cs =>
      match afterBreak? cs with
      | some cs => afterFiller steps cs
      | none => .ok cs

/-! ## Strings -/

/-- What a letter after a backslash stands for. -/
def escaped? : Char → Option Char
  | 'b' => some '\x08'
  | 't' => some '\t'
  | 'n' => some '\n'
  | 'f' => some '\x0c'
  | 'r' => some '\r'
  | '"' => some '"'
  | '\\' => some '\\'
  | _ => none

/-- The value of a digit in a base up to sixteen. -/
def digit? (base : Nat) (c : Char) : Option Nat :=
  let value :=
    if c.isDigit then c.toNat - '0'.toNat
    else if 'a' ≤ c ∧ c ≤ 'f' then c.toNat - 'a'.toNat + 10
    else if 'A' ≤ c ∧ c ≤ 'F' then c.toNat - 'A'.toNat + 10
    else base
  if value < base then some value else none

/-- The number that digits write in a base. -/
def number? (base : Nat) (digits : List Char) : Option Nat :=
  digits.foldlM (fun n c => (digit? base c).map (base * n + ·)) 0

/-- A character by its number, in so many hexadecimal digits. -/
def readNumbered (count : Nat) (cs : List Char) : Except Fault (Char × List Char) :=
  match number? 16 (cs.take count) with
  | some n =>
    if count ≤ cs.length ∧ n.isValidChar then .ok (Char.ofNat n, cs.drop count)
    else .error .badEscape
  | none => .error .badEscape

/-- What follows a backslash. -/
def readEscape : List Char → Except Fault (Char × List Char)
  | 'u' :: cs => readNumbered 4 cs
  | 'U' :: cs => readNumbered 8 cs
  | c :: cs =>
    match escaped? c with
    | some c => .ok (c, cs)
    | none => .error .badEscape
  | [] => .error .badEscape

/-- The rest of a string on one line, in at most so many steps. A literal string, between single
quotes, has no escapes. -/
def readShort (quote : Char) (literal : Bool) : Nat → List Char →
    Except Fault (List Char × List Char)
  | 0, _ | _, [] => .error .badString
  | steps + 1, c :: cs =>
    if c = quote then .ok ([], cs)
    else if c = '\\' ∧ !literal then do
      let (c, cs) ← readEscape cs
      let (s, cs) ← readShort quote literal steps cs
      return (c :: s, cs)
    else if isPlain c then do
      let (s, cs) ← readShort quote literal steps cs
      return (c :: s, cs)
    else .error .badString

/-- The text after the white space over several lines that follows a backslash at the end of a line;
none if the backslash is not there. -/
def afterFold? (cs : List Char) : Option (List Char) :=
  (afterBreak? (afterBlanks cs)).map dropSpace
where
  /-- The text after blanks and line breaks. -/
  dropSpace : List Char → List Char
    | '\r' :: '\n' :: cs => dropSpace cs
    | c :: cs => if c == ' ' || c == '\t' || c == '\n' then dropSpace cs else c :: cs
    | [] => []

/-- The rest of a string over several lines, in at most so many steps. Three quotes close it, which
two more may come before; line breaks are line feeds. -/
def readLong (quote : Char) (literal : Bool) : Nat → List Char →
    Except Fault (List Char × List Char)
  | 0, _ | _, [] => .error .badString
  | steps + 1, c :: cs =>
    if c = quote then
      let quotes := (c :: cs).takeWhile (· == quote)
      let cs := (c :: cs).drop quotes.length
      if quotes.length < 3 then do
        let (s, cs) ← readLong quote literal steps cs
        return (quotes ++ s, cs)
      else if quotes.length ≤ 5 then .ok (quotes.drop 3, cs)
      else .error .badString
    else if c = '\\' ∧ !literal then
      match afterFold? cs with
      | some cs => readLong quote literal steps cs
      | none => do
        let (c, cs) ← readEscape cs
        let (s, cs) ← readLong quote literal steps cs
        return (c :: s, cs)
    else
      match afterBreak? (c :: cs) with
      | some cs => do
        let (s, cs) ← readLong quote literal steps cs
        return ('\n' :: s, cs)
      | none =>
        if isPlain c then do
          let (s, cs) ← readLong quote literal steps cs
          return (c :: s, cs)
        else .error .badString

/-- The single quote, around literal strings. -/
def apostrophe : Char := '\x27'

/-- A string, if the text starts with a quote. -/
def readString? (long : Bool) (cs : List Char) : Option (Except Fault (String × List Char)) :=
  match cs with
  | c :: rest =>
    if c = '"' ∨ c = apostrophe then
      let literal := c == apostrophe
      let result :=
        if long && [c, c].isPrefixOf rest then
          let rest := rest.drop 2
          readLong c literal cs.length ((afterBreak? rest).getD rest)
        else readShort c literal cs.length rest
      some (result.map fun (s, cs) => (String.ofList s, cs))
    else none
  | [] => none

/-! ## Keys -/

/-- Whether a character may stand in a key without quotes. -/
def isBareKeyChar (c : Char) : Bool :=
  c.isAlphanum || c == '_' || c == '-'

/-- A key without dots. -/
def readSimpleKey (cs : List Char) : Except Fault (String × List Char) :=
  match readString? false cs with
  | some result => result
  | none =>
    match cs.span isBareKeyChar with
    | ([], _) => .error .badKey
    | (key, cs) => .ok (String.ofList key, cs)

/-- The number of keys that dots may not join. -/
def maxKeys : Nat := 80

/-- Keys joined by dots, in at most so many steps, with the blanks around them. -/
def readKeys : Nat → List Char → Except Fault (List String × List Char)
  | 0, _ => .error .tooDeep
  | steps + 1, cs => do
    let (key, cs) ← readSimpleKey (afterBlanks cs)
    match afterBlanks cs with
    | '.' :: cs => do
      let (keys, cs) ← readKeys steps cs
      return (key :: keys, cs)
    | cs => return ([key], cs)

/-! ## Numbers -/

/-- The digits of a number, without the low lines between them. -/
def digits? (base : Nat) (cs : List Char) : Option (List Char) :=
  let groups := cs.splitOn '_'
  if groups.all fun g => !g.isEmpty && g.all fun c => (digit? base c).isSome then
    some groups.flatten
  else none

/-- The sign of a number, and the number without it. -/
def signed : List Char → Bool × List Char
  | '-' :: cs => (true, cs)
  | '+' :: cs => (false, cs)
  | cs => (false, cs)

/-- An integer in a base other than ten. -/
def basedInteger? (cs : List Char) : Option Int := do
  let (base, cs) ← match cs with
    | '0' :: 'x' :: cs => some (16, cs)
    | '0' :: 'o' :: cs => some (8, cs)
    | '0' :: 'b' :: cs => some (2, cs)
    | _ => none
  Integer64.signed? false (← number? base (← digits? base cs))

/-- Decimal digits without a leading zero. -/
def wholeDigits? (cs : List Char) : Option (List Char) := do
  let digits ← digits? 10 cs
  match cs with
  | '0' :: _ :: _ => none
  | _ => some digits

/-- A decimal integer of 64 bits. -/
def integer? (cs : List Char) : Option Int := do
  let (negative, cs) := signed cs
  Integer64.signed? negative (← number? 10 (← wholeDigits? cs))

/-- The power of ten behind an `e`. -/
def exponent? (cs : List Char) : Option Int := do
  let (negative, cs) := signed cs
  let n ← number? 10 (← digits? 10 cs)
  return if negative then -n else n

/-- A floating-point number. One that is too great is no number, but one that is too small is an
infinity. -/
def float? (cs : List Char) : Option Binary64 := do
  let (negative, cs) := signed cs
  if cs = ['i', 'n', 'f'] then return .infinite negative
  if cs = ['n', 'a', 'n'] then return .nan
  let (mantissa, power) := cs.span fun c => c != 'e' && c != 'E'
  let (whole, fraction) := mantissa.span (· != '.')
  let whole ← wholeDigits? whole
  let fraction ← match fraction with
    | [] => if power.isEmpty then none else some []
    | _ :: fraction => digits? 10 fraction
  let power ← match power with
    | [] => some 0
    | _ :: power => exponent? power
  let x := Binary64.ofDecimal negative (← number? 10 (whole ++ fraction)) (power - fraction.length)
  if x = .infinite false then none else some x

/-! ## Dates and times -/

/-- A number of exactly so many digits that lies in a range, and the rest. -/
def fixed? (count least most : Nat) (cs : List Char) : Option (Nat × List Char) := do
  let n ← number? 10 (cs.take count)
  if count ≤ cs.length ∧ least ≤ n ∧ n ≤ most then some (n, cs.drop count) else none

/-- The number of days of a month. -/
def daysOf (year month : Nat) : Nat :=
  if month = 2 then
    if year % 4 = 0 ∧ (year % 100 ≠ 0 ∨ year % 400 = 0) then 29 else 28
  else if month = 4 ∨ month = 6 ∨ month = 9 ∨ month = 11 then 30
  else 31

/-- The text after a certain character. -/
def after? (c : Char) : List Char → Option (List Char)
  | d :: cs => if c = d then some cs else none
  | [] => none

/-- A number in so many digits at least. -/
def padded (count n : Nat) : List Char :=
  let digits := Nat.toDigits 10 n
  List.replicate (count - digits.length) '0' ++ digits

/-- The notation of the date that a text starts with, and the rest. -/
def date? (cs : List Char) : Option (List Char × List Char) := do
  let (year, cs) ← fixed? 4 0 9999 cs
  let (month, cs) ← fixed? 2 1 12 (← after? '-' cs)
  let (day, cs) ← fixed? 2 1 31 (← after? '-' cs)
  if day ≤ daysOf year month then
    some (padded 4 year ++ '-' :: padded 2 month ++ '-' :: padded 2 day, cs)
  else none

/-- The notation of a fraction of a second: nine digits count, and no zeros at the end. -/
def fractionText (digits : List Char) : List Char :=
  match ((digits.take 9).reverse.dropWhile (· == '0')).reverse with
  | [] => []
  | digits => '.' :: digits

/-- The notation of the time that a text starts with, and the rest. -/
def time? (cs : List Char) : Option (List Char × List Char) := do
  let (hour, cs) ← fixed? 2 0 23 cs
  let (minute, cs) ← fixed? 2 0 59 (← after? ':' cs)
  let (second, cs) ← fixed? 2 0 60 (← after? ':' cs)
  let text := padded 2 hour ++ ':' :: padded 2 minute ++ ':' :: padded 2 second
  match cs with
  | '.' :: rest =>
    match rest.span Char.isDigit with
    | ([], _) => none
    | (digits, rest) => some (text ++ fractionText digits, rest)
  | cs => some (text, cs)

/-- The notation of the offset from universal time that is a whole text. -/
def offset? (cs : List Char) : Option (List Char) :=
  match cs with
  | ['Z'] | ['z'] => some ['Z']
  | sign :: cs => do
    if sign ≠ '+' ∧ sign ≠ '-' then none
    let (hour, cs) ← fixed? 2 0 23 cs
    let (minute, cs) ← fixed? 2 0 59 (← after? ':' cs)
    if cs ≠ [] then none
    let sign := if hour = 0 ∧ minute = 0 then '+' else sign
    return sign :: padded 2 hour ++ ':' :: padded 2 minute
  | [] => none

/-- The notation of a date, a time, or both with or without an offset, that is a whole text. -/
def moment? (cs : List Char) : Option (List Char) :=
  match date? cs with
  | some (date, []) => some date
  | some (date, c :: cs) => do
    if c ≠ 'T' ∧ c ≠ 't' ∧ c ≠ ' ' then none
    let (time, cs) ← time? cs
    match cs with
    | [] => some (date ++ 'T' :: time)
    | cs => return date ++ 'T' :: time ++ (← offset? cs)
  | none =>
    match time? cs with
    | some (time, []) => some time
    | _ => none

/-! ## Words -/

/-- Whether a character may stand in a number, a date or a word. -/
def isWordChar (c : Char) : Bool :=
  c.isAlphanum || c == '+' || c == '-' || c == '.' || c == '_' || c == ':'

/-- The word that a text starts with, and the rest. A blank may stand between a date and a time. -/
def readWord (cs : List Char) : List Char × List Char :=
  match cs.span isWordChar with
  | (word, ' ' :: cs) =>
    match date? word, cs.span isWordChar with
    | some (_, []), (c :: more, rest) =>
      if c.isDigit then (word ++ ' ' :: c :: more, rest) else (word, ' ' :: cs)
    | _, _ => (word, ' ' :: cs)
  | (word, cs) => (word, cs)

/-- The value of a word. -/
def wordValue (word : List Char) : Except Fault Settings.Value :=
  if word = ['t', 'r', 'u', 'e'] then .ok (.boolean true)
  else if word = ['f', 'a', 'l', 's', 'e'] then .ok (.boolean false)
  else
    match moment? word, (integer? word).or (basedInteger? word), float? word with
    | some text, _, _ => .ok (.text (String.ofList text))
    | _, some n, _ => .ok (.integer n)
    | _, _, some x => .ok (.real x)
    | _, _, _ => .error (if word = [] then .badValue else .badNumber)

end MessageMarkup.Toml
