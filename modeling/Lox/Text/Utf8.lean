/-!
Reading UTF-8. `Utf8.decode` accepts exactly the well-formed byte sequences (no overlong forms,
no surrogates, nothing above U+10FFFF) and otherwise reports where the valid prefix ends and how
many bytes the bad sequence takes, or that the input ends inside a sequence.
-/
namespace Lox

/-- Where decoding failed: the length of the valid prefix, and the length of the invalid sequence
after it, or `none` when the input ends in the middle of a sequence. -/
structure Utf8Error where
  validUpTo : Nat
  errorLen : Option Nat
  deriving DecidableEq, Repr

/-- The text of a decoding failure. -/
def Utf8Error.message (e : Utf8Error) : String :=
  match e.errorLen with
  | some n =>
    "invalid utf-8 sequence of " ++ Nat.repr n ++ " bytes from index " ++ Nat.repr e.validUpTo
  | none => "incomplete utf-8 byte sequence from index " ++ Nat.repr e.validUpTo

namespace Utf8

/-- The length of the sequence a leading byte starts; `0` for a byte that starts none. -/
def width (b : Nat) : Nat :=
  if b < 0x80 then 1
  else if b < 0xC2 then 0
  else if b < 0xE0 then 2
  else if b < 0xF0 then 3
  else if b < 0xF5 then 4
  else 0

/-- A continuation byte, `10xxxxxx`. -/
def isTail (b : Nat) : Bool := 0x80 ≤ b && b < 0xC0

/-- The second byte allowed after a leading byte: narrower after `E0`, `ED`, `F0` and `F4`, which
rules out overlong forms, surrogates and code points past U+10FFFF. -/
def secondOk (first second : Nat) : Bool :=
  if first = 0xE0 then 0xA0 ≤ second && second < 0xC0
  else if first = 0xED then 0x80 ≤ second && second < 0xA0
  else if first = 0xF0 then 0x90 ≤ second && second < 0xC0
  else if first = 0xF4 then 0x80 ≤ second && second < 0x90
  else isTail second

/-- Decodes from byte index `i`, after the characters already read. -/
def decodeFrom (i : Nat) : List UInt8 → Array Char → Except Utf8Error (Array Char)
  | [], acc => .ok acc
  | b :: rest, acc =>
    let b0 := b.toNat
    match width b0 with
    | 1 => decodeFrom (i + 1) rest (acc.push (Char.ofNat b0))
    | 2 =>
      match rest with
      | [] => .error ⟨i, none⟩
      | c :: rest' =>
        if isTail c.toNat then
          decodeFrom (i + 2) rest' (acc.push (Char.ofNat ((b0 % 32) * 64 + c.toNat % 64)))
        else .error ⟨i, some 1⟩
    | 3 =>
      match rest with
      | [] => .error ⟨i, none⟩
      | c1 :: r1 =>
        if !secondOk b0 c1.toNat then .error ⟨i, some 1⟩
        else match r1 with
          | [] => .error ⟨i, none⟩
          | c2 :: r2 =>
            if !isTail c2.toNat then .error ⟨i, some 2⟩
            else
              let cp := (b0 % 16) * 4096 + (c1.toNat % 64) * 64 + c2.toNat % 64
              decodeFrom (i + 3) r2 (acc.push (Char.ofNat cp))
    | 4 =>
      match rest with
      | [] => .error ⟨i, none⟩
      | c1 :: r1 =>
        if !secondOk b0 c1.toNat then .error ⟨i, some 1⟩
        else match r1 with
          | [] => .error ⟨i, none⟩
          | c2 :: r2 =>
            if !isTail c2.toNat then .error ⟨i, some 2⟩
            else match r2 with
              | [] => .error ⟨i, none⟩
              | c3 :: r3 =>
                if !isTail c3.toNat then .error ⟨i, some 3⟩
                else
                  let cp := (b0 % 8) * 262144 + (c1.toNat % 64) * 4096 +
                    (c2.toNat % 64) * 64 + c3.toNat % 64
                  decodeFrom (i + 4) r3 (acc.push (Char.ofNat cp))
    | _ => .error ⟨i, some 1⟩

/-- The text a byte sequence encodes, or where it stops being UTF-8. -/
def decode (bytes : ByteArray) : Except Utf8Error String :=
  (decodeFrom 0 bytes.toList #[]).map fun cs => String.ofList cs.toList

end Utf8

end Lox
