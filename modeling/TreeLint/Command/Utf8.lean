import TreeLint.Text.Quoted

/-!
# Reading UTF-8

Bytes are read in blocks. The bytes of a character that a block leaves unfinished are put in front
of the next block, and the position of an error counts from there. At the end of the bytes only an
unfinished character is left, so that its error is at position zero.
-/

set_option autoImplicit false

namespace TreeLint.Utf8

inductive Reason where
  | invalidStart
  | invalidContinuation
  | unexpectedEnd
  deriving DecidableEq, Repr

def Reason.text : Reason → String
  | invalidStart => "invalid start byte"
  | invalidContinuation => "invalid continuation byte"
  | unexpectedEnd => "unexpected end of data"

structure DecodeError where
  position : Nat
  bytes : List UInt8
  reason : Reason
  deriving DecidableEq, Repr

/-- A single byte is shown; of several, the positions of the first and the last. -/
def DecodeError.message (error : DecodeError) : String :=
  let place :=
    match error.bytes with
    | [byte] =>
        "byte 0x" ++ String.ofList (Text.hexadecimal 2 byte.toNat) ++ " in position " ++
          toString error.position
    | bytes =>
        "bytes in position " ++ toString error.position ++ "-" ++
          toString (error.position + bytes.length - 1)
  "'utf-8' codec can't decode " ++ place ++ ": " ++ error.reason.text

structure Pending where
  /-- The bytes so far. -/
  bytes : List UInt8
  /-- The bits of the code point so far. -/
  code : Nat
  /-- The number of bytes still to come. -/
  owed : Nat
  /-- The least next byte. -/
  low : UInt8
  /-- The greatest next byte. -/
  high : UInt8

/-- The state after the first byte of a character of several bytes. The bounds of the second byte
leave out overlong forms, surrogates and what lies beyond the last code point. -/
def lead? (byte : UInt8) : Option Pending :=
  if byte < 0xC2 then none
  else if byte < 0xE0 then some ⟨[byte], byte.toNat - 0xC0, 1, 0x80, 0xBF⟩
  else if byte == 0xE0 then some ⟨[byte], 0, 2, 0xA0, 0xBF⟩
  else if byte == 0xED then some ⟨[byte], 0xD, 2, 0x80, 0x9F⟩
  else if byte < 0xF0 then some ⟨[byte], byte.toNat - 0xE0, 2, 0x80, 0xBF⟩
  else if byte == 0xF0 then some ⟨[byte], 0, 3, 0x90, 0xBF⟩
  else if byte < 0xF4 then some ⟨[byte], byte.toNat - 0xF0, 3, 0x80, 0xBF⟩
  else if byte == 0xF4 then some ⟨[byte], 4, 3, 0x80, 0x8F⟩
  else none

/-- The first two bytes of a surrogate are told from an unfinished character only once a further
byte is looked for. -/
def isSurrogateStart (pending : Pending) (byte : UInt8) : Bool :=
  pending.bytes == [0xED] && 0xA0 ≤ byte && byte ≤ 0xBF

/-- Reads bytes from a point on. There is `room` for that many bytes in the present block, the
next byte is at `position`, and `done` are the characters so far, last first. -/
def decodeFrom (blockSize room position : Nat) (pending : Option Pending) (done : List Char) :
    List UInt8 → Except DecodeError (List Char)
  | [] =>
      match pending with
      | none => .ok done.reverse
      | some pending => .error ⟨0, pending.bytes, .unexpectedEnd⟩
  | byte :: rest =>
      let endsBlock := room ≤ 1
      let next (pending : Option Pending) : Nat :=
        if endsBlock then (pending.map (·.bytes.length)).getD 0 else position + 1
      let room := if endsBlock then blockSize else room - 1
      match pending with
      | none =>
          if byte < 0x80 then
            decodeFrom blockSize room (next none) none (Char.ofNat byte.toNat :: done) rest
          else
            match lead? byte with
            | none => .error ⟨position, [byte], .invalidStart⟩
            | some started => decodeFrom blockSize room (next (some started)) (some started) done rest
      | some pending =>
          if byte < pending.low || pending.high < byte then
            let waits := isSurrogateStart pending byte && (endsBlock || rest.isEmpty)
            let position := if waits then 0 else position - pending.bytes.length
            .error ⟨position, pending.bytes, .invalidContinuation⟩
          else
            let code := pending.code * 0x40 + (byte.toNat - 0x80)
            if pending.owed ≤ 1 then
              decodeFrom blockSize room (next none) none (Char.ofNat code :: done) rest
            else
              let pending : Pending :=
                ⟨pending.bytes ++ [byte], code, pending.owed - 1, 0x80, 0xBF⟩
              decodeFrom blockSize room (next (some pending)) (some pending) done rest

def blockSize : Nat := 8192

def decode (bytes : List UInt8) : Except DecodeError String :=
  (decodeFrom blockSize blockSize 0 none [] bytes).map String.ofList

end TreeLint.Utf8
