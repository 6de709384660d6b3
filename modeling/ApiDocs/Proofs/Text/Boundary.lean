import Mathlib.Data.List.Infix
import ApiDocs.Proofs.Text.Utf8

/-!
# Boundaries of characters

Bytes decode exactly if they are the bytes of a text without halves of pairs.  A *boundary* is a
number of bytes at which such a text can be cut between two characters.  Boundaries cut the bytes
as they cut the text: what lies between two of them decodes, and gives the characters between them.
-/

namespace ApiDocs.Text.Utf8

variable {text front piece : Text} {bytes : List UInt8} {position byte : Nat}

/-- A text without halves of pairs. -/
def IsWhole (text : Text) : Prop :=
  ∀ symbol ∈ text, symbol.isHalf = false

instance (text : Text) : Decidable (IsWhole text) :=
  inferInstanceAs (Decidable (∀ symbol ∈ text, symbol.isHalf = false))

theorem IsWhole.of_prefix (whole : IsWhole text) (isFront : front <+: text) : IsWhole front :=
  fun symbol member => whole symbol (isFront.subset member)

theorem IsWhole.of_suffix (whole : IsWhole text) (isEnd : piece <:+ text) : IsWhole piece :=
  fun symbol member => whole symbol (isEnd.subset member)

theorem encode_append (left right : Text) : encode (left ++ right) = encode left ++ encode right :=
  List.flatMap_append

theorem encode_char_cons (c : Char) (text : Text) :
    encode (.char c :: text) = encodeChar c ++ encode text := by
  rw [encode, List.flatMap_cons]
  rfl

/-- Bytes that decode are the bytes of the text that they decode to. -/
theorem encode_of_decodeFrom (decoded : decodeFrom position bytes = .ok text) :
    encode text = bytes ∧ IsWhole text := by
  induction length : bytes.length using Nat.strong_induction_on
    generalizing bytes position text with
  | _ count ih =>
      cases bytes with
      | nil =>
          rw [decodeFrom] at decoded
          cases decoded
          exact ⟨rfl, by simp [IsWhole]⟩
      | cons first rest =>
          rw [decodeFrom] at decoded
          split at decoded
          · rename_i c behind stepped
            split at decoded
            · rename_i others decodedBehind
              cases decoded
              have shorter := length_rest_of_step stepped
              rw [List.length_cons] at length
              obtain ⟨isBehind, whole⟩ := ih behind.length (by omega) decodedBehind rfl
              refine ⟨?_, List.forall_mem_cons.mpr ⟨rfl, whole⟩⟩
              rw [encode_char_cons, isBehind, encodeChar_append_of_step stepped]
            · cases decoded
          · cases decoded

theorem decode_eq_ok_iff : decode bytes = .ok text ↔ encode text = bytes ∧ IsWhole text := by
  constructor
  · exact encode_of_decodeFrom
  · rintro ⟨rfl, whole⟩
    exact decode_encode whole

theorem eq_nil_of_encode_eq_nil (whole : IsWhole text) (nothing : encode text = []) :
    text = [] := by
  cases text with
  | nil => rfl
  | cons symbol rest =>
      cases symbol with
      | half offset => exact absurd (whole _ List.mem_cons_self) (by simp [Symbol.isHalf])
      | char c =>
          obtain ⟨first, behind, bytes, -⟩ := step_encodeChar c
          rw [encode_char_cons, bytes] at nothing
          cases nothing

/-- A number of bytes at which a text can be cut between two characters. -/
def IsBoundary (text : Text) (byte : Nat) : Prop :=
  ∃ front, front <+: text ∧ (encode front).length = byte

/-- The beginning of a text that has no more bytes is the shorter one. -/
theorem prefix_of_length_encode_le {longer : Text} (whole : IsWhole text) (isFront : front <+: text)
    (isLonger : longer <+: text) (fewer : (encode front).length ≤ (encode longer).length) :
    front <+: longer := by
  rcases List.prefix_or_prefix_of_prefix isFront isLonger with shorter | ⟨extra, rfl⟩
  · exact shorter
  · rw [encode_append, List.length_append] at fewer
    have nothing : encode extra = [] := List.eq_nil_of_length_eq_zero (by omega)
    have wholeExtra := (whole.of_prefix isFront).of_suffix (List.suffix_append longer extra)
    rw [eq_nil_of_encode_eq_nil wholeExtra nothing, List.append_nil]

/-- Up to a boundary that lies behind the beginning of a text, the text goes on with some piece. -/
theorem IsBoundary.exists_piece (whole : IsWhole text) (boundary : IsBoundary text byte)
    (isFront : front <+: text) (behind : (encode front).length ≤ byte) :
    ∃ piece, front ++ piece <+: text ∧ (encode (front ++ piece)).length = byte := by
  obtain ⟨longer, isLonger, rfl⟩ := boundary
  obtain ⟨piece, rfl⟩ := prefix_of_length_encode_le whole isFront isLonger behind
  exact ⟨piece, isLonger, rfl⟩

theorem take_encode (isFront : front <+: text) :
    (encode text).take (encode front).length = encode front := by
  obtain ⟨rest, rfl⟩ := isFront
  rw [encode_append, List.take_left]

/-- The bytes between two boundaries are those of the piece between them. -/
theorem take_drop_encode (isFront : front ++ piece <+: text) :
    ((encode text).drop (encode front).length).take
        ((encode (front ++ piece)).length - (encode front).length) = encode piece := by
  obtain ⟨rest, rfl⟩ := isFront
  rw [encode_append front piece, List.append_assoc, encode_append front, List.drop_left,
    encode_append piece, List.length_append, Nat.add_sub_cancel_left, List.take_left]

end ApiDocs.Text.Utf8
