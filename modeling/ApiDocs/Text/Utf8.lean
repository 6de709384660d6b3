import ApiDocs.Text.Pair

/-!
# UTF-8

Encoding of texts into bytes, and decoding that names the first fault.  A text with
halves of pairs has no encoding.  A fault in bytes is a byte that starts no character,
a byte that does not continue the character before it, or an end inside a
character; the report gives the range of bytes from the start of the broken
character up to where it went wrong.
-/

namespace ApiDocs.Text

namespace Utf8

/-- The bytes of one character. -/
def encodeChar (c : Char) : List UInt8 :=
  let code := c.toNat
  if code < 0x80 then [code.toUInt8]
  else if code < 0x800 then
    [(0xC0 + code / 0x40).toUInt8, (0x80 + code % 0x40).toUInt8]
  else if code < 0x10000 then
    [(0xE0 + code / 0x1000).toUInt8, (0x80 + code / 0x40 % 0x40).toUInt8,
      (0x80 + code % 0x40).toUInt8]
  else
    [(0xF0 + code / 0x40000).toUInt8, (0x80 + code / 0x1000 % 0x40).toUInt8,
      (0x80 + code / 0x40 % 0x40).toUInt8, (0x80 + code % 0x40).toUInt8]

/-- The bytes of one symbol; a half of a pair has none. -/
def encodeSymbol : Symbol → List UInt8
  | .char c => encodeChar c
  | .half _ => []

/-- The bytes of the characters of a text. -/
def encode (text : Text) : List UInt8 :=
  text.flatMap encodeSymbol

@[simp]
theorem encode_nil : encode [] = [] := rfl

/-- The bytes of a text, or its first halves. -/
def encode? (text : Text) : Except Halves (List UInt8) :=
  match firstHalves? text with
  | some halves => .error halves
  | none => .ok (encode text)

/-- What is wrong with a sequence of bytes. -/
inductive Fault where
  | invalidStart
  | invalidContinuation
  | unexpectedEnd
  deriving DecidableEq, Repr, Inhabited

/-- The words for a fault. -/
def Fault.reason : Fault → String
  | .invalidStart => "invalid start byte"
  | .invalidContinuation => "invalid continuation byte"
  | .unexpectedEnd => "unexpected end of data"

/-- The first fault of a sequence of bytes: where it starts, its bytes, and its kind. -/
structure Failure where
  position : Nat
  bytes : List UInt8
  fault : Fault
  deriving DecidableEq, Repr, Inhabited

/-- One step of decoding: a character and the bytes behind it, or the bytes of a fault. -/
inductive Step where
  | char (c : Char) (rest : List UInt8)
  | fault (bytes : List UInt8) (kind : Fault)

/-- Whether a byte continues a character. -/
def isContinuation (byte : UInt8) : Bool :=
  0x80 ≤ byte.toNat && byte.toNat < 0xC0

/-- Whether the byte may be the second of a character with the given first byte. -/
def isSecond (first second : UInt8) : Bool :=
  isContinuation second &&
    (if first == 0xE0 then 0xA0 ≤ second.toNat
    else if first == 0xED then second.toNat < 0xA0
    else if first == 0xF0 then 0x90 ≤ second.toNat
    else if first == 0xF4 then second.toNat < 0x90
    else true)

/-- The six bits that a continuation byte adds. -/
def tailBits (byte : UInt8) : Nat :=
  byte.toNat % 0x40

/--
Reads the given number of continuation bytes.  The bytes of the character so far
are the ones to report if one is missing.
-/
def readTail (before : List UInt8) (value : Nat) : Nat → List UInt8 → Step
  | 0, rest => .char (Char.ofNat value) rest
  | _ + 1, [] => .fault before .unexpectedEnd
  | needed + 1, byte :: rest =>
    if isContinuation byte then
      readTail (before ++ [byte]) (value * 0x40 + tailBits byte) needed rest
    else .fault before .invalidContinuation

/-- Reads the tail of a character of at least two bytes, whose second byte depends on the first. -/
def readLong (first : UInt8) (bits needed : Nat) : List UInt8 → Step
  | [] => .fault [first] .unexpectedEnd
  | second :: rest =>
    if isSecond first second then
      readTail [first, second] (bits * 0x40 + tailBits second) needed rest
    else .fault [first] .invalidContinuation

/-- Decodes the character that starts with `first`. -/
def step (first : UInt8) (rest : List UInt8) : Step :=
  let lead := first.toNat
  if lead < 0x80 then .char (Char.ofNat lead) rest
  else if lead < 0xC2 then .fault [first] .invalidStart
  else if lead < 0xE0 then readLong first (lead - 0xC0) 0 rest
  else if lead < 0xF0 then readLong first (lead - 0xE0) 1 rest
  else if lead < 0xF5 then readLong first (lead - 0xF0) 2 rest
  else .fault [first] .invalidStart

/-- Reading a tail leaves no more bytes than there were. -/
theorem length_rest_of_readTail {before : List UInt8} {value needed : Nat}
    {rest behind : List UInt8} {c : Char}
    (decoded : readTail before value needed rest = .char c behind) :
    behind.length ≤ rest.length := by
  induction needed generalizing before value rest with
  | zero =>
      simp only [readTail, Step.char.injEq] at decoded
      simp [decoded.2]
  | succ needed ih =>
      cases rest with
      | nil => simp [readTail] at decoded
      | cons byte rest =>
          rw [readTail] at decoded
          split at decoded
          · exact Nat.le_succ_of_le (ih decoded)
          · simp at decoded

/-- Reading a long character leaves no more bytes than there were. -/
theorem length_rest_of_readLong {first : UInt8} {bits needed : Nat}
    {rest behind : List UInt8} {c : Char}
    (decoded : readLong first bits needed rest = .char c behind) :
    behind.length ≤ rest.length := by
  cases rest with
  | nil => simp [readLong] at decoded
  | cons second rest =>
      rw [readLong] at decoded
      split at decoded
      · exact Nat.le_succ_of_le (length_rest_of_readTail decoded)
      · simp at decoded

/-- A decoded character leaves no more bytes than stand behind its first one. -/
theorem length_rest_of_step {first : UInt8} {rest behind : List UInt8} {c : Char}
    (decoded : step first rest = .char c behind) : behind.length ≤ rest.length := by
  unfold step at decoded
  simp only at decoded
  split at decoded
  · simp only [Step.char.injEq] at decoded
    simp [decoded.2]
  · split at decoded
    · simp at decoded
    · split at decoded
      · exact length_rest_of_readLong decoded
      · split at decoded
        · exact length_rest_of_readLong decoded
        · split at decoded
          · exact length_rest_of_readLong decoded
          · simp at decoded

/-- Decodes the bytes that stand at the given position. -/
def decodeFrom (position : Nat) (bytes : List UInt8) : Except Failure Text :=
  match bytes with
  | [] => .ok []
  | first :: rest =>
    match _decoded : step first rest with
    | .char c behind =>
      match decodeFrom (position + c.utf8Size) behind with
      | .ok text => .ok (.char c :: text)
      | .error failure => .error failure
    | .fault faulty kind => .error ⟨position, faulty, kind⟩
termination_by bytes.length
decreasing_by
  have shorter := length_rest_of_step _decoded
  simp only [List.length_cons]
  omega

/-- The text that the bytes encode, or their first fault. -/
def decode (bytes : List UInt8) : Except Failure Text :=
  decodeFrom 0 bytes

end Utf8

end ApiDocs.Text
