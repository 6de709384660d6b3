import ApiDocs.Text.Utf8

/-!
# Names on the disk

The disk keeps names as bytes.  A byte that belongs to no character is shown in a text
as one of the halves from `U+DC80` to `U+DCFF`, so that every name on the disk has a
text.  The other halves stand for nothing on a disk, and a text that has one of them is
no name.  Two texts are the same name if they have the same bytes: the bytes of one
character, written one by one, name what the character names.
-/

namespace ApiDocs.Disk.Name

/-- The byte for which a half of a pair stands in a name. -/
def looseByte? : Symbol → Option UInt8
  | .char _ => none
  | .half offset =>
    if 0x480 ≤ offset.val ∧ offset.val < 0x500 then some (offset.val - 0x400).toUInt8 else none

/-- The symbol for a byte that belongs to no character. -/
def ofLooseByte (byte : UInt8) : Symbol :=
  .ofCode (0xDC00 + byte.toNat)

/-- Whether a symbol has no bytes in a name. -/
def isStray (symbol : Symbol) : Bool :=
  symbol.isHalf && (looseByte? symbol).isNone

@[simp]
theorem isStray_char (c : Char) : isStray (.char c) = false := rfl

/-- The bytes of one symbol of a name. -/
def symbolBytes (symbol : Symbol) : List UInt8 :=
  match looseByte? symbol with
  | some byte => [byte]
  | none => Text.Utf8.encodeSymbol symbol

/-- The bytes of a name. -/
def bytes (name : Text) : List UInt8 :=
  name.flatMap symbolBytes

/-- The number of bytes of a name. -/
def size (name : Text) : Nat :=
  (bytes name).length

/-- The text that shows the bytes of a name. -/
def ofBytes (bytes : List UInt8) : Text :=
  match bytes with
  | [] => []
  | first :: rest =>
    match _decoded : Text.Utf8.step first rest with
    | .char c behind => .char c :: ofBytes behind
    | .fault faulty _ => faulty.map ofLooseByte ++ ofBytes (rest.drop (faulty.length - 1))
termination_by bytes.length
decreasing_by
  · have shorter := Text.Utf8.length_rest_of_step _decoded
    simp only [List.length_cons]
    omega
  · simp only [List.length_drop, List.length_cons]
    omega

/-- The text under which the disk shows a name. -/
def stored (name : Text) : Text :=
  ofBytes (bytes name)

end ApiDocs.Disk.Name
