import Mathlib

/-!
# JSON texts as spellings (RFC 8259)

A `Value` is one *spelling* of a JSON value: it keeps the whitespace, the digits of every number,
the escapes of every string and the order of the members, so that `render` gives back exactly the
bytes it was read from. Strings are byte strings here, as in a reader that works on bytes: a byte
from `0x80` on is an ordinary string byte, whether or not it is part of a UTF-8 sequence.

The byte classes are subtypes, so that a tree that is no JSON text cannot be written down.
`Read.lean` proves that every JSON text has exactly one tree.
-/

namespace Json

abbrev Bytes := List UInt8

/-! ## Byte classes -/

def isWs (b : UInt8) : Bool := b == 0x20 || b == 0x09 || b == 0x0a || b == 0x0d
def isDigit (b : UInt8) : Bool := 0x30 ≤ b && b ≤ 0x39
def isDigit19 (b : UInt8) : Bool := 0x31 ≤ b && b ≤ 0x39
def isHex (b : UInt8) : Bool := isDigit b || (0x41 ≤ b && b ≤ 0x46) || (0x61 ≤ b && b ≤ 0x66)
/-- `unescaped`: any byte but `"`, `\` and the control characters. -/
def isPlain (b : UInt8) : Bool := 0x20 ≤ b && b != 0x22 && b != 0x5c

abbrev WsByte := { b : UInt8 // isWs b = true }
abbrev Digit := { b : UInt8 // isDigit b = true }
abbrev Digit19 := { b : UInt8 // isDigit19 b = true }
abbrev HexDigit := { b : UInt8 // isHex b = true }
abbrev PlainByte := { b : UInt8 // isPlain b = true }

abbrev Ws := List WsByte

/-- The bytes of a run of classified bytes. -/
def raw {p : UInt8 → Bool} (l : List { b : UInt8 // p b = true }) : Bytes := l.map Subtype.val

@[simp] theorem raw_nil {p : UInt8 → Bool} : raw ([] : List { b : UInt8 // p b = true }) = [] := rfl

@[simp] theorem raw_cons {p : UInt8 → Bool} (b : { b : UInt8 // p b = true }) (l) :
    raw (b :: l) = b.val :: raw l := rfl

@[simp] theorem length_raw {p : UInt8 → Bool} (l : List { b : UInt8 // p b = true }) :
    (raw l).length = l.length := by simp [raw]

/-! ## Numbers -/

/-- `1*DIGIT` -/
structure Digits where
  head : Digit
  tail : List Digit
deriving DecidableEq, Repr

def Digits.render (d : Digits) : Bytes := d.head.val :: raw d.tail

/-- `int = zero / ( digit1-9 *DIGIT )` -/
inductive IntPart where
  | zero
  | pos (head : Digit19) (tail : List Digit)
deriving DecidableEq, Repr

def IntPart.render : IntPart → Bytes
  | .zero => [0x30]
  | .pos d ds => d.val :: raw ds

/-- `exp = e [ minus / plus ] 1*DIGIT`; `sign = some true` is a minus. -/
structure Exp where
  upper : Bool
  sign : Option Bool
  digits : Digits
deriving DecidableEq, Repr

def renderSign : Option Bool → Bytes
  | none => []
  | some true => [0x2d]
  | some false => [0x2b]

def Exp.render (e : Exp) : Bytes :=
  (if e.upper then 0x45 else 0x65) :: (renderSign e.sign ++ e.digits.render)

/-- `number = [ minus ] int [ frac ] [ exp ]` -/
structure Number where
  neg : Bool
  int : IntPart
  frac : Option Digits
  exp : Option Exp
deriving DecidableEq, Repr

def renderFrac : Option Digits → Bytes
  | none => []
  | some d => 0x2e :: d.render

def renderExp : Option Exp → Bytes
  | none => []
  | some e => e.render

def Number.render (n : Number) : Bytes :=
  (if n.neg then [0x2d] else []) ++ (n.int.render ++ (renderFrac n.frac ++ renderExp n.exp))

/-! ## Strings -/

/-- The two-character escapes. -/
inductive Escape where
  | quote | backslash | slash | backspace | formFeed | lineFeed | carriageReturn | tab
deriving DecidableEq, Repr

/-- The character after the backslash. -/
def Escape.letter : Escape → UInt8
  | .quote => 0x22
  | .backslash => 0x5c
  | .slash => 0x2f
  | .backspace => 0x62
  | .formFeed => 0x66
  | .lineFeed => 0x6e
  | .carriageReturn => 0x72
  | .tab => 0x74

def Escape.ofLetter (b : UInt8) : Option Escape :=
  if b = 0x22 then some .quote
  else if b = 0x5c then some .backslash
  else if b = 0x2f then some .slash
  else if b = 0x62 then some .backspace
  else if b = 0x66 then some .formFeed
  else if b = 0x6e then some .lineFeed
  else if b = 0x72 then some .carriageReturn
  else if b = 0x74 then some .tab
  else none

theorem Escape.ofLetter_letter (e : Escape) : Escape.ofLetter e.letter = some e := by
  cases e <;> decide

theorem Escape.letter_of_ofLetter {b : UInt8} {e : Escape} (h : Escape.ofLetter b = some e) :
    e.letter = b := by
  unfold Escape.ofLetter at h
  repeat' split at h
  all_goals first | (injection h with h; subst h; simp_all [Escape.letter]) | cases h

theorem Escape.letter_ne_u (e : Escape) : e.letter ≠ 0x75 := by cases e <;> decide

/-- One element of a string literal's body. -/
inductive StrItem where
  | plain (b : PlainByte)
  | esc (e : Escape)
  | unicode (a b c d : HexDigit)
deriving DecidableEq, Repr

def StrItem.render : StrItem → Bytes
  | .plain b => [b.val]
  | .esc e => [0x5c, e.letter]
  | .unicode a b c d => [0x5c, 0x75, a.val, b.val, c.val, d.val]

/-- A string literal's body. -/
abbrev Str := List StrItem

/-- The body's bytes. -/
def renderBody (s : Str) : Bytes := s.flatMap StrItem.render

/-- The literal's bytes: the body between two quotes. -/
def renderStr (s : Str) : Bytes := 0x22 :: (renderBody s ++ [0x22])

/-! ## Values -/

mutual
/-- A spelled JSON value, without surrounding whitespace. -/
inductive Value where
  | null
  | bool (b : Bool)
  | num (n : Number)
  | str (s : Str)
  /-- `[ ws ]` -/
  | arrNil (ws : Ws)
  | arr (pre : Ws) (v : Value) (post : Ws) (rest : Elems)
  /-- an object with no members -/
  | objNil (ws : Ws)
  | obj (pre : Ws) (key : Str) (mid : Ws) (pre' : Ws) (v : Value) (post : Ws) (rest : Members)
deriving DecidableEq, Repr

/-- What follows an array's element: the closing bracket, or a comma and the next one. -/
inductive Elems where
  | nil
  | cons (pre : Ws) (v : Value) (post : Ws) (rest : Elems)
deriving DecidableEq, Repr

/-- What follows an object's member. -/
inductive Members where
  | nil
  | cons (pre : Ws) (key : Str) (mid : Ws) (pre' : Ws) (v : Value) (post : Ws) (rest : Members)
deriving DecidableEq, Repr
end

mutual
def Value.render : Value → Bytes
  | .null => [0x6e, 0x75, 0x6c, 0x6c]
  | .bool true => [0x74, 0x72, 0x75, 0x65]
  | .bool false => [0x66, 0x61, 0x6c, 0x73, 0x65]
  | .num n => n.render
  | .str s => renderStr s
  | .arrNil ws => 0x5b :: (raw ws ++ [0x5d])
  | .arr pre v post rest => 0x5b :: (raw pre ++ (v.render ++ (raw post ++ rest.render)))
  | .objNil ws => 0x7b :: (raw ws ++ [0x7d])
  | .obj pre key mid pre' v post rest =>
    0x7b :: (raw pre ++ (renderStr key ++ (raw mid ++ (0x3a :: (raw pre' ++
      (v.render ++ (raw post ++ rest.render)))))))

def Elems.render : Elems → Bytes
  | .nil => [0x5d]
  | .cons pre v post rest => 0x2c :: (raw pre ++ (v.render ++ (raw post ++ rest.render)))

def Members.render : Members → Bytes
  | .nil => [0x7d]
  | .cons pre key mid pre' v post rest =>
    0x2c :: (raw pre ++ (renderStr key ++ (raw mid ++ (0x3a :: (raw pre' ++
      (v.render ++ (raw post ++ rest.render)))))))
end

/-- A JSON text: a value between runs of whitespace. -/
structure Text where
  pre : Ws
  value : Value
  post : Ws
deriving DecidableEq, Repr

def Text.render (t : Text) : Bytes := raw t.pre ++ (t.value.render ++ raw t.post)

end Json
