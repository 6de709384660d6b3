import ApiDocs.Disk.Name
import ApiDocs.Path.Basic
import ApiDocs.Proofs.Text.Pieces
import ApiDocs.Proofs.Text.Utf8

/-!
# Names as the disk keeps them

The disk keeps a name as bytes and shows it again as a text.  What it shows has the
same bytes, so that showing it twice changes nothing.  Characters of ASCII stand for
themselves and never become part of anything else: a path has the same slashes when the
disk shows it, and its pieces are the pieces of the path, each as the disk shows it.
-/

namespace ApiDocs.Disk.Name

open Text.Utf8 (StartsAfresh)

/-! ## Bytes and back -/

@[simp]
theorem bytes_nil : bytes [] = [] := rfl

@[simp]
theorem bytes_cons (symbol : Symbol) (name : Text) :
    bytes (symbol :: name) = symbolBytes symbol ++ bytes name := rfl

@[simp]
theorem bytes_append (left right : Text) : bytes (left ++ right) = bytes left ++ bytes right :=
  List.flatMap_append

theorem size_append (left right : Text) : size (left ++ right) = size left + size right := by
  rw [size, size, size, bytes_append, List.length_append]

@[simp]
theorem symbolBytes_char (c : Char) : symbolBytes (.char c) = Text.Utf8.encodeChar c := rfl

theorem symbolBytes_ofLooseByte {byte : UInt8} (high : 0x80 ≤ byte.toNat) :
    symbolBytes (ofLooseByte byte) = [byte] := by
  have bound := byte.toNat_lt
  have inGap : 0xD800 ≤ 0xDC00 + byte.toNat ∧ 0xDC00 + byte.toNat < 0xE000 := by omega
  have isByte : (0xDC00 + byte.toNat - 0xD800 - 0x400).toUInt8 = byte :=
    Text.Utf8.toUInt8_eq_of_eq_toNat byte (by omega)
  simp only [ofLooseByte, Symbol.ofCode, dif_pos inGap, symbolBytes, looseByte?]
  rw [if_pos (by omega)]
  simp only [isByte]

theorem bytes_map_ofLooseByte {loose : List UInt8} (high : ∀ byte ∈ loose, 0x80 ≤ byte.toNat) :
    bytes (loose.map ofLooseByte) = loose := by
  induction loose with
  | nil => rfl
  | cons byte loose ih =>
      rw [List.map_cons, bytes_cons, symbolBytes_ofLooseByte (high byte List.mem_cons_self),
        ih fun other member => high other (List.mem_cons_of_mem byte member)]
      rfl

/-- The text that shows some bytes has these bytes. -/
theorem bytes_ofBytes (encoded : List UInt8) : bytes (ofBytes encoded) = encoded := by
  fun_induction ofBytes encoded with
  | case1 => rfl
  | case2 first rest c behind decoded ih =>
      rw [bytes_cons, symbolBytes_char, ih, Text.Utf8.encodeChar_append_of_step decoded]
  | case3 first rest faulty kind decoded ih =>
      obtain ⟨taken, rfl, isFront, high⟩ := Text.Utf8.exists_of_step_fault decoded
      rw [bytes_append, bytes_map_ofLooseByte high, ih]
      simp only [List.length_cons, Nat.add_sub_cancel, List.cons_append, List.cons.injEq,
        true_and]
      obtain ⟨others, rfl⟩ := isFront
      simp

/-- Showing a name again changes nothing. -/
@[simp]
theorem stored_stored (name : Text) : stored (stored name) = stored name := by
  simp only [stored, bytes_ofBytes]

@[simp]
theorem stored_nil : stored [] = [] := by
  simp [stored, ofBytes]

/-! ## Characters of ASCII -/

/-- Whether a character takes one byte. -/
def IsAscii (c : Char) : Prop :=
  c.toNat < 0x80

instance (c : Char) : Decidable (IsAscii c) :=
  inferInstanceAs (Decidable (_ < _))

theorem encodeChar_of_isAscii {c : Char} (ascii : IsAscii c) :
    Text.Utf8.encodeChar c = [c.toNat.toUInt8] := by
  have bound : c.toNat < 0x80 := ascii
  rw [Text.Utf8.encodeChar, if_pos bound]

theorem toNat_toUInt8_of_isAscii {c : Char} (ascii : IsAscii c) :
    c.toNat.toUInt8.toNat = c.toNat := by
  have bound : c.toNat < 0x80 := ascii
  simp
  omega

theorem startsAfresh_bytes_cons {c : Char} (ascii : IsAscii c) (name : Text) :
    StartsAfresh (bytes (.char c :: name)) := by
  intro byte isHead
  rw [bytes_cons, symbolBytes_char, encodeChar_of_isAscii ascii] at isHead
  obtain rfl : c.toNat.toUInt8 = byte := by simpa using isHead
  have bound : c.toNat < 0x80 := ascii
  simp only [Text.Utf8.isContinuation, toNat_toUInt8_of_isAscii ascii]
  simp
  omega

/-- Bytes that start afresh are shown as if nothing stood in front of them. -/
theorem ofBytes_append (encoded : List UInt8) {more : List UInt8} (afresh : StartsAfresh more) :
    ofBytes (encoded ++ more) = ofBytes encoded ++ ofBytes more := by
  fun_induction ofBytes encoded with
  | case1 => rfl
  | case2 first rest c behind decoded ih =>
      have longer : Text.Utf8.step first (rest ++ more) = .char c (behind ++ more) :=
        Text.Utf8.step_append_of_char decoded
      rw [List.cons_append, ofBytes]
      split
      · rename_i decodedLonger
        rw [longer] at decodedLonger
        obtain ⟨rfl, rfl⟩ := Text.Utf8.Step.char.inj decodedLonger
        rw [ih, List.cons_append]
      · rename_i decodedLonger
        rw [longer] at decodedLonger
        cases decodedLonger
  | case3 first rest faulty kind decoded ih =>
      obtain ⟨otherKind, longer⟩ := Text.Utf8.step_append_of_fault afresh decoded
      obtain ⟨taken, rfl, isFront, -⟩ := Text.Utf8.exists_of_step_fault decoded
      have taken_le := isFront.length_le
      rw [List.cons_append, ofBytes]
      split
      · rename_i decodedLonger
        rw [longer] at decodedLonger
        cases decodedLonger
      · rename_i decodedLonger
        rw [longer] at decodedLonger
        obtain ⟨rfl, -⟩ := Text.Utf8.Step.fault.inj decodedLonger
        simp only [List.length_cons, Nat.add_sub_cancel] at ih ⊢
        rw [List.drop_append_of_le_length taken_le, ih, List.append_assoc]

theorem ofBytes_ascii_cons {c : Char} (ascii : IsAscii c) (rest : List UInt8) :
    ofBytes (c.toNat.toUInt8 :: rest) = .char c :: ofBytes rest := by
  have isChar : Text.Utf8.step c.toNat.toUInt8 rest = .char c rest := by
    have bound : c.toNat < 0x80 := ascii
    simp only [Text.Utf8.step, toNat_toUInt8_of_isAscii ascii, if_pos bound, Char.ofNat_toNat]
  rw [ofBytes]
  split
  · rename_i decoded
    rw [isChar] at decoded
    obtain ⟨rfl, rfl⟩ := Text.Utf8.Step.char.inj decoded
    rfl
  · rename_i decoded
    rw [isChar] at decoded
    cases decoded

/-- A name is shown on both sides of a character of ASCII by itself. -/
theorem stored_append_cons {c : Char} (ascii : IsAscii c) (left right : Text) :
    stored (left ++ .char c :: right) = stored left ++ .char c :: stored right := by
  rw [stored, bytes_append, ofBytes_append _ (startsAfresh_bytes_cons ascii right), bytes_cons,
    symbolBytes_char, encodeChar_of_isAscii ascii]
  exact congrArg _ (ofBytes_ascii_cons ascii (bytes right))

/-- A text of characters of ASCII. -/
def IsAsciiText (text : Text) : Prop :=
  ∀ symbol ∈ text, ∃ c, symbol = .char c ∧ IsAscii c

/-- A string of characters of ASCII. -/
def IsAsciiString (string : String) : Prop :=
  ∀ c ∈ string.toList, IsAscii c

instance (string : String) : Decidable (IsAsciiString string) :=
  decidable_of_iff (string.toList.all fun c => decide (IsAscii c))
    (by simp [IsAsciiString])

theorem isAsciiText_ofString {string : String} (ascii : IsAsciiString string) :
    IsAsciiText (Text.ofString string) := by
  intro symbol member
  obtain ⟨c, isChar, rfl⟩ := List.mem_map.mp member
  exact ⟨c, rfl, ascii c isChar⟩

theorem stored_append_of_isAsciiText (left : Text) {right : Text} (ascii : IsAsciiText right) :
    stored (left ++ right) = stored left ++ right := by
  cases right with
  | nil => simp
  | cons first rest =>
      obtain ⟨c, rfl, isAscii⟩ := ascii first List.mem_cons_self
      have restAscii : stored rest = rest := by
        have isAsciiRest : IsAsciiText rest := fun symbol member =>
          ascii symbol (List.mem_cons_of_mem _ member)
        simpa using stored_append_of_isAsciiText [] isAsciiRest
      rw [stored_append_cons isAscii, restAscii]
  termination_by right.length

theorem stored_of_isAsciiText {name : Text} (ascii : IsAsciiText name) : stored name = name := by
  simpa using stored_append_of_isAsciiText [] ascii

/-- The bytes of a symbol have a byte of ASCII only for that character. -/
theorem eq_of_mem_symbolBytes {c : Char} (ascii : IsAscii c) {symbol : Symbol}
    (member : c.toNat.toUInt8 ∈ symbolBytes symbol) : symbol = .char c := by
  have bound : c.toNat < 0x80 := ascii
  have toNatEq := toNat_toUInt8_of_isAscii ascii
  cases symbol with
  | char d =>
      rw [symbolBytes_char, Text.Utf8.encodeChar] at member
      have limit : d.toNat < 0x110000 := by
        have := Symbol.toNat_char_cases d
        omega
      have codes : c.toNat = d.toNat := by
        split_ifs at member <;>
          simp only [List.mem_cons, List.not_mem_nil, or_false, ← UInt8.toNat_inj, toNatEq]
            at member <;>
          simp at member <;>
          omega
      rw [← Char.ofNat_toNat c, codes, Char.ofNat_toNat]
  | half offset =>
      simp only [symbolBytes, looseByte?] at member
      split_ifs at member with isLoose
      · simp only [List.mem_singleton, ← UInt8.toNat_inj, toNatEq] at member
        simp at member
        omega
      · simp [Text.Utf8.encodeSymbol] at member

theorem char_mem_iff_mem_bytes {c : Char} (ascii : IsAscii c) (name : Text) :
    Symbol.char c ∈ name ↔ c.toNat.toUInt8 ∈ bytes name := by
  constructor
  · intro member
    refine List.mem_flatMap.mpr ⟨_, member, ?_⟩
    simp [encodeChar_of_isAscii ascii]
  · intro member
    obtain ⟨symbol, inName, inBytes⟩ := List.mem_flatMap.mp member
    rwa [eq_of_mem_symbolBytes ascii inBytes] at inName

/-- A character of ASCII is shown exactly where it is written. -/
theorem char_mem_stored_iff {c : Char} (ascii : IsAscii c) (name : Text) :
    Symbol.char c ∈ stored name ↔ Symbol.char c ∈ name := by
  rw [char_mem_iff_mem_bytes ascii, stored, bytes_ofBytes, ← char_mem_iff_mem_bytes ascii]

/-! ## Texts in which every symbol has bytes -/

theorem isStray_ofLooseByte {byte : UInt8} (high : 0x80 ≤ byte.toNat) :
    isStray (ofLooseByte byte) = false := by
  have bound := byte.toNat_lt
  have inGap : 0xD800 ≤ 0xDC00 + byte.toNat ∧ 0xDC00 + byte.toNat < 0xE000 := by omega
  simp only [ofLooseByte, Symbol.ofCode, dif_pos inGap, isStray, looseByte?]
  rw [if_pos (by omega)]
  simp

/-- Every symbol that shows bytes has bytes. -/
theorem not_isStray_of_mem_ofBytes {encoded : List UInt8} {symbol : Symbol}
    (member : symbol ∈ ofBytes encoded) : isStray symbol = false := by
  fun_induction ofBytes encoded with
  | case1 => cases member
  | case2 first rest c behind decoded ih =>
      rcases List.mem_cons.mp member with rfl | further
      · rfl
      · exact ih further
  | case3 first rest faulty kind decoded ih =>
      obtain ⟨taken, -, -, high⟩ := Text.Utf8.exists_of_step_fault decoded
      rcases List.mem_append.mp member with loose | further
      · obtain ⟨byte, inFaulty, rfl⟩ := List.mem_map.mp loose
        exact isStray_ofLooseByte (high byte inFaulty)
      · exact ih further

theorem symbolBytes_ne_nil {symbol : Symbol} (hasBytes : isStray symbol = false) :
    symbolBytes symbol ≠ [] := by
  cases symbol with
  | char c =>
      rw [symbolBytes_char, Text.Utf8.encodeChar]
      split_ifs <;> exact List.cons_ne_nil _ _
  | half offset =>
      simp only [isStray, symbolBytes] at hasBytes ⊢
      cases loose : looseByte? (.half offset) with
      | none => simp [loose, Symbol.isHalf] at hasBytes
      | some byte => exact List.cons_ne_nil _ _

/-- A name begins with a character of ASCII if the disk shows it so. -/
theorem exists_of_stored_eq_cons {c : Char} (ascii : IsAscii c) {name rest : Text}
    (hasBytes : ∀ symbol ∈ name, isStray symbol = false)
    (same : stored name = .char c :: rest) :
    ∃ others, name = .char c :: others ∧ stored others = rest := by
  have read : bytes name = c.toNat.toUInt8 :: bytes rest := by
    have shown := congrArg bytes same
    rwa [stored, bytes_ofBytes, bytes_cons, symbolBytes_char, encodeChar_of_isAscii ascii] at shown
  cases name with
  | nil => cases read
  | cons symbol others =>
      obtain ⟨first, more, own⟩ :=
        List.exists_cons_of_ne_nil (symbolBytes_ne_nil (hasBytes symbol List.mem_cons_self))
      rw [bytes_cons, own] at read
      have isFirst := (List.cons.inj read).1
      obtain rfl : symbol = .char c := by
        apply eq_of_mem_symbolBytes ascii
        rw [own, isFirst]
        exact List.mem_cons_self
      refine ⟨others, rfl, ?_⟩
      have shown : stored (.char c :: others) = .char c :: stored others := by
        simpa using stored_append_cons ascii [] others
      rw [shown] at same
      exact (List.cons.inj same).2

/-- A name that the disk shows as a text of ASCII is that text. -/
theorem eq_of_stored_eq {name text : Text} (ascii : IsAsciiText text)
    (hasBytes : ∀ symbol ∈ name, isStray symbol = false) (same : stored name = text) :
    name = text := by
  induction text generalizing name with
  | nil =>
      cases name with
      | nil => rfl
      | cons symbol others =>
          have nothing := congrArg bytes same
          rw [stored, bytes_ofBytes, bytes_cons] at nothing
          exact absurd (List.append_eq_nil_iff.mp nothing).1
            (symbolBytes_ne_nil (hasBytes symbol List.mem_cons_self))
  | cons symbol rest ih =>
      obtain ⟨c, rfl, isAscii⟩ := ascii symbol List.mem_cons_self
      obtain ⟨others, rfl, further⟩ := exists_of_stored_eq_cons isAscii hasBytes same
      have restAscii : IsAsciiText rest := fun other member =>
        ascii other (List.mem_cons_of_mem _ member)
      rw [ih restAscii (fun other member => hasBytes other (List.mem_cons_of_mem _ member)) further]

/-! ## Pieces of a path -/

theorem stored_joinWith_slash (pieces : List Text) :
    stored (Text.joinWith "/" pieces) = Text.joinWith "/" (pieces.map stored) := by
  have slash : IsAscii '/' := by decide
  induction pieces with
  | nil => simp [Text.joinWith]
  | cons first rest ih =>
      rcases eq_or_ne rest [] with rfl | nonempty
      · rfl
      · have atSlash (left right : Text) :
            left ++ ("/" : Text) ++ right = left ++ .char '/' :: right := by
          rw [List.append_assoc]
          rfl
        have mapped : rest.map stored ≠ [] := mt List.map_eq_nil_iff.mp nonempty
        rw [Text.joinWith_cons _ _ nonempty, atSlash, stored_append_cons slash, ih,
          List.map_cons, Text.joinWith_cons _ _ mapped, atSlash]

/-- The pieces of a path as the disk shows it are its pieces as the disk shows them. -/
theorem pieces_stored (path : Text) :
    Path.pieces (stored path) = (Path.pieces path).map stored := by
  have slash : IsAscii '/' := by decide
  have nonempty : (Path.pieces path).map stored ≠ [] :=
    mt List.map_eq_nil_iff.mp (List.splitOn_ne_nil _ path)
  have whole : ∀ piece ∈ (Path.pieces path).map stored, Symbol.char '/' ∉ piece := by
    intro piece member
    obtain ⟨name, isPiece, rfl⟩ := List.mem_map.mp member
    rw [char_mem_stored_iff slash]
    exact Text.not_mem_of_mem_splitOn _ isPiece
  calc
    Path.pieces (stored path) =
        Path.pieces (stored (Text.joinWith "/" (Path.pieces path))) :=
      congrArg _ (congrArg _ (Text.joinWith_splitOn _ path).symm)
    _ = Path.pieces (Text.joinWith "/" ((Path.pieces path).map stored)) := by
      rw [stored_joinWith_slash]
    _ = (Path.pieces path).map stored :=
      Text.splitOn_joinWith_of_not_mem (Symbol.char '/') nonempty whole

end ApiDocs.Disk.Name
