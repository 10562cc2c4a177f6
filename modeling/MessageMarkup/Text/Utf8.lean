/-!
# UTF-8 bytes

Bytes of files and the texts they hold. `decode?` reads bytes that are all well formed, and
`decodeLossy` reads any bytes, with U+FFFD for each sequence that starts like a character and does
not go on as one.
-/

namespace MessageMarkup.Utf8

/-- The second and later bytes of a character. -/
def isContinuation (b : UInt8) : Bool :=
  0x80 ≤ b && b ≤ 0xBF

/-- The bytes that may come second, after the first byte of a character of three or four: the others
would make a character of fewer bytes, a surrogate, or a number out of range. -/
def isSecond (first second : UInt8) : Bool :=
  if first == 0xE0 then 0xA0 ≤ second && second ≤ 0xBF
  else if first == 0xED then 0x80 ≤ second && second ≤ 0x9F
  else if first == 0xF0 then 0x90 ≤ second && second ≤ 0xBF
  else if first == 0xF4 then 0x80 ≤ second && second ≤ 0x8F
  else isContinuation second

/-- The low six bits of a continuation byte, behind the bits before it. -/
def extend (n : Nat) (b : UInt8) : Nat :=
  n * 0x40 + (b.toNat - 0x80)

/-- The character of a first byte and the bytes after it, and how many of those belong to it. If it
is no character, what belongs to it are the bytes with which it could still have become one. -/
def piece (first : UInt8) (rest : List UInt8) : Option Char × Nat :=
  if first < 0x80 then (some (Char.ofNat first.toNat), 0)
  else if 0xC2 ≤ first && first ≤ 0xDF then
    match rest with
    | b :: _ =>
      if isContinuation b then (some (Char.ofNat (extend (first.toNat - 0xC0) b)), 1) else (none, 0)
    | [] => (none, 0)
  else if 0xE0 ≤ first && first ≤ 0xEF then
    match rest with
    | b :: c :: _ =>
      if !isSecond first b then (none, 0)
      else if isContinuation c then
        (some (Char.ofNat (extend (extend (first.toNat - 0xE0) b) c)), 2)
      else (none, 1)
    | [b] => (none, if isSecond first b then 1 else 0)
    | [] => (none, 0)
  else if 0xF0 ≤ first && first ≤ 0xF4 then
    match rest with
    | b :: c :: d :: _ =>
      if !isSecond first b then (none, 0)
      else if !isContinuation c then (none, 1)
      else if isContinuation d then
        (some (Char.ofNat (extend (extend (extend (first.toNat - 0xF0) b) c) d)), 3)
      else (none, 2)
    | [b, c] => (none, if !isSecond first b then 0 else if isContinuation c then 2 else 1)
    | [b] => (none, if isSecond first b then 1 else 0)
    | [] => (none, 0)
  else (none, 0)

/-- The characters of some bytes; none for each sequence that is no character. -/
def pieces : List UInt8 → List (Option Char)
  | [] => []
  | first :: rest => (piece first rest).1 :: pieces (rest.drop (piece first rest).2)
  termination_by bytes => bytes.length
  decreasing_by simp only [List.length_drop, List.length_cons]; omega

/-- The text of some bytes, if they are well formed. -/
def decode? (bytes : List UInt8) : Option String :=
  ((pieces bytes).mapM id).map String.ofList

/-- The text of some bytes, with U+FFFD for what is not well formed. -/
def decodeLossy (bytes : List UInt8) : String :=
  String.ofList ((pieces bytes).map (·.getD (Char.ofNat 0xFFFD)))

/-- The bytes of a text. -/
def encode (text : String) : List UInt8 :=
  text.toUTF8.toList

end MessageMarkup.Utf8
