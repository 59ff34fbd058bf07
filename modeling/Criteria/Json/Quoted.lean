import Criteria.Text.Basic

/-!
Strings between quotes. Writing escapes quotes, backslashes and control
characters and nothing else. Reading takes every escape; what a string means is
decided afterwards, when all of it is known.
-/

set_option autoImplicit false

namespace Criteria.Quoted

def hexDigit (n : Nat) : Char :=
  if n < 10 then Char.ofNat (48 + n) else Char.ofNat (87 + n)

/-- A character as it stands between quotes. -/
def escape (c : Char) : List Char :=
  match c with
  | '"' => ['\\', '"']
  | '\\' => ['\\', '\\']
  | '\x08' => ['\\', 'b']
  | '\t' => ['\\', 't']
  | '\n' => ['\\', 'n']
  | '\x0c' => ['\\', 'f']
  | '\r' => ['\\', 'r']
  | c => if c.toNat < 32 then ['\\', 'u', '0', '0', hexDigit (c.toNat / 16), hexDigit (c.toNat % 16)]
    else [c]

def chars (s : String) : List Char :=
  '"' :: s.toList.flatMap escape ++ ['"']

/-- A byte of the string, or a UTF-16 unit that was written as an escape. -/
inductive Part where
  | byte (b : UInt8)
  | unit (value : Nat)

def hexValue? (b : UInt8) : Option Nat :=
  if 48 ≤ b ∧ b ≤ 57 then some (b.toNat - 48)
  else if 97 ≤ b ∧ b ≤ 102 then some (b.toNat - 87)
  else if 65 ≤ b ∧ b ≤ 70 then some (b.toNat - 55)
  else none

def unit? (a b c d : UInt8) : Option Nat := do
  let a ← hexValue? a
  let b ← hexValue? b
  let c ← hexValue? c
  let d ← hexValue? d
  return ((a * 16 + b) * 16 + c) * 16 + d

/-- What a backslash and one further byte stand for. -/
def simpleEscape? : UInt8 → Option UInt8
  | 0x22 => some 0x22
  | 0x5c => some 0x5c
  | 0x2f => some 0x2f
  | 0x62 => some 0x08
  | 0x66 => some 0x0c
  | 0x6e => some 0x0a
  | 0x72 => some 0x0d
  | 0x74 => some 0x09
  | _ => none

/-- The parts up to the closing quote, and what follows it. -/
def read? : Bytes → Option (List Part × Bytes)
  | [] => none
  | 0x22 :: rest => some ([], rest)
  | 0x5c :: 0x75 :: a :: b :: c :: d :: rest =>
    match unit? a b c d, read? rest with
    | some value, some (parts, rest) => some (.unit value :: parts, rest)
    | _, _ => none
  | 0x5c :: b :: rest =>
    match simpleEscape? b, read? rest with
    | some byte, some (parts, rest) => some (.byte byte :: parts, rest)
    | _, _ => none
  | b :: rest =>
    if b < 0x20 ∨ b = 0x5c then none
    else
      match read? rest with
      | some (parts, rest) => some (.byte b :: parts, rest)
      | none => none

def isHighSurrogate (value : Nat) : Bool :=
  0xd800 ≤ value && value < 0xdc00

def isLowSurrogate (value : Nat) : Bool :=
  0xdc00 ≤ value && value < 0xe000

/-- The bytes of the parts. Surrogates must come in pairs, high before low. -/
def bytes? : List Part → Option Bytes
  | [] => some []
  | .byte b :: rest => (bytes? rest).map (b :: ·)
  | .unit high :: .unit low :: rest =>
    if isHighSurrogate high then
      if isLowSurrogate low then
        let c := Char.ofNat (0x10000 + (high - 0xd800) * 0x400 + (low - 0xdc00))
        (bytes? rest).map (String.utf8EncodeChar c ++ ·)
      else none
    else if isLowSurrogate high then none
    else (bytes? (.unit low :: rest)).map (String.utf8EncodeChar (Char.ofNat high) ++ ·)
  | .unit value :: rest =>
    if isHighSurrogate value || isLowSurrogate value then none
    else (bytes? rest).map (String.utf8EncodeChar (Char.ofNat value) ++ ·)

/-- The string that the parts spell, if they spell one. -/
def decode? (parts : List Part) : Option String :=
  (bytes? parts).bind ofUtf8?

end Criteria.Quoted
