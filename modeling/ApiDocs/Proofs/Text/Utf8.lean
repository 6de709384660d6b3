import Mathlib.Data.List.Basic
import ApiDocs.Text.Utf8

/-!
# Single steps of decoding

A step of decoding reads one character or finds one fault.  It does not look beyond
what it reads: with further bytes behind, the same character or the same faulty bytes
come out, as long as the further bytes do not go on with a broken character.  And it
loses nothing: the bytes of the character that was read, or the faulty bytes, stand at
the beginning of what was decoded.  So a text is read back from the bytes in which it was
encoded, unless it has halves of pairs, for which there are no bytes.
-/

namespace ApiDocs.Text.Utf8

/-- Bytes that do not go on with a character that stands in front of them. -/
def StartsAfresh (bytes : List UInt8) : Prop :=
  ∀ byte ∈ bytes.head?, isContinuation byte = false

variable {first : UInt8} {before rest behind faulty more : List UInt8}
  {value bits needed : Nat} {c : Char} {kind : Fault}

/-! ## What stands behind -/

theorem readTail_append_of_char (decoded : readTail before value needed rest = .char c behind) :
    readTail before value needed (rest ++ more) = .char c (behind ++ more) := by
  induction needed generalizing before value rest with
  | zero =>
      simp only [readTail, Step.char.injEq] at decoded
      simp [readTail, decoded]
  | succ needed ih =>
      cases rest with
      | nil => simp [readTail] at decoded
      | cons byte rest =>
          rw [readTail] at decoded
          rw [List.cons_append, readTail]
          split at decoded
          · rename_i continues
            rw [if_pos continues]
            exact ih decoded
          · simp at decoded

theorem readTail_append_of_fault (afresh : StartsAfresh more)
    (decoded : readTail before value needed rest = .fault faulty kind) :
    ∃ kind, readTail before value needed (rest ++ more) = .fault faulty kind := by
  induction needed generalizing before value rest with
  | zero => simp [readTail] at decoded
  | succ needed ih =>
      cases rest with
      | nil =>
          simp only [readTail, Step.fault.injEq] at decoded
          obtain ⟨rfl, -⟩ := decoded
          cases more with
          | nil => exact ⟨_, rfl⟩
          | cons byte more =>
              have breaks : isContinuation byte = false := afresh byte rfl
              exact ⟨.invalidContinuation, by simp [readTail, breaks]⟩
      | cons byte rest =>
          rw [readTail] at decoded
          rw [List.cons_append, readTail]
          split at decoded
          · rename_i continues
            rw [if_pos continues]
            exact ih decoded
          · rename_i breaks
            rw [if_neg breaks]
            simp only [Step.fault.injEq] at decoded
            exact ⟨_, by rw [decoded.1]⟩

theorem readLong_append_of_char (decoded : readLong first bits needed rest = .char c behind) :
    readLong first bits needed (rest ++ more) = .char c (behind ++ more) := by
  cases rest with
  | nil => simp [readLong] at decoded
  | cons second rest =>
      rw [readLong] at decoded
      rw [List.cons_append, readLong]
      split at decoded
      · rename_i goesOn
        rw [if_pos goesOn]
        exact readTail_append_of_char decoded
      · simp at decoded

theorem not_isSecond_of_not_isContinuation (first : UInt8) {second : UInt8}
    (breaks : isContinuation second = false) : isSecond first second = false := by
  simp [isSecond, breaks]

theorem readLong_append_of_fault (afresh : StartsAfresh more)
    (decoded : readLong first bits needed rest = .fault faulty kind) :
    ∃ kind, readLong first bits needed (rest ++ more) = .fault faulty kind := by
  cases rest with
  | nil =>
      simp only [readLong, Step.fault.injEq] at decoded
      obtain ⟨rfl, -⟩ := decoded
      cases more with
      | nil => exact ⟨_, rfl⟩
      | cons byte more =>
          have breaks := not_isSecond_of_not_isContinuation first (afresh byte rfl)
          exact ⟨.invalidContinuation, by simp [readLong, breaks]⟩
  | cons second rest =>
      rw [readLong] at decoded
      rw [List.cons_append, readLong]
      split at decoded
      · rename_i goesOn
        rw [if_pos goesOn]
        exact readTail_append_of_fault afresh decoded
      · rename_i breaks
        rw [if_neg breaks]
        simp only [Step.fault.injEq] at decoded
        exact ⟨_, by rw [decoded.1]⟩

/-- A character that can be read is read with anything behind it. -/
theorem step_append_of_char (decoded : step first rest = .char c behind) :
    step first (rest ++ more) = .char c (behind ++ more) := by
  simp only [step] at decoded ⊢
  split_ifs at decoded ⊢
  · simp only [Step.char.injEq] at decoded
    simp [decoded]
  all_goals exact readLong_append_of_char decoded

/-- A fault is the same with bytes behind it that start afresh. -/
theorem step_append_of_fault (afresh : StartsAfresh more)
    (decoded : step first rest = .fault faulty kind) :
    ∃ kind, step first (rest ++ more) = .fault faulty kind := by
  simp only [step] at decoded ⊢
  split_ifs at decoded ⊢
  · exact ⟨kind, decoded⟩
  · exact readLong_append_of_fault afresh decoded
  · exact readLong_append_of_fault afresh decoded
  · exact readLong_append_of_fault afresh decoded
  · exact ⟨kind, decoded⟩

/-! ## What was read -/

theorem toUInt8_eq_of_eq_toNat {code : Nat} (byte : UInt8) (same : code = byte.toNat) :
    code.toUInt8 = byte := by
  subst same
  exact UInt8.ofNat_toNat

/-- The value of a continuation byte lies between the bits that mark it. -/
theorem toNat_of_isContinuation {byte : UInt8} (continues : isContinuation byte = true) :
    byte.toNat = 0x80 + tailBits byte ∧ tailBits byte < 0x40 := by
  simp only [isContinuation, Bool.and_eq_true, decide_eq_true_eq] at continues
  simp only [tailBits]
  omega

theorem toNat_ofNat_of_isValidChar {code : Nat} (valid : code.isValidChar) :
    (Char.ofNat code).toNat = code := by
  rw [Char.ofNat, dif_pos valid]
  rfl

/-- The bytes of a character of two bytes are those from which it was read. -/
theorem encodeChar_of_two {lead last : UInt8} (bounds : 0xC2 ≤ lead.toNat ∧ lead.toNat < 0xE0)
    (lastGoesOn : isContinuation last = true) :
    encodeChar (Char.ofNat ((lead.toNat - 0xC0) * 0x40 + tailBits last)) = [lead, last] := by
  have lastValue := toNat_of_isContinuation lastGoesOn
  rw [encodeChar, toNat_ofNat_of_isValidChar (by left; omega)]
  rw [if_neg (by omega), if_pos (by omega)]
  rw [toUInt8_eq_of_eq_toNat lead (by omega),
    toUInt8_eq_of_eq_toNat last (by omega)]

/-- The second byte keeps codes out of the gap and away from what fewer bytes can say. -/
theorem isSecond_bounds {lead second : UInt8} (goesOn : isSecond lead second = true) :
    isContinuation second = true ∧
      (lead.toNat = 0xE0 → 0x20 ≤ tailBits second) ∧
      (lead.toNat = 0xED → tailBits second < 0x20) ∧
      (lead.toNat = 0xF0 → 0x10 ≤ tailBits second) ∧
      (lead.toNat = 0xF4 → tailBits second < 0x10) := by
  simp only [isSecond, Bool.and_eq_true, beq_iff_eq, ← UInt8.toNat_inj] at goesOn
  obtain ⟨continues, range⟩ := goesOn
  have value := toNat_of_isContinuation continues
  refine ⟨continues, ?_, ?_, ?_, ?_⟩ <;>
    intro isLead <;>
    simp [isLead] at range <;>
    omega

theorem encodeChar_of_three {lead second last : UInt8}
    (bounds : 0xE0 ≤ lead.toNat ∧ lead.toNat < 0xF0) (goesOn : isSecond lead second = true)
    (lastGoesOn : isContinuation last = true) :
    encodeChar (Char.ofNat
        (((lead.toNat - 0xE0) * 0x40 + tailBits second) * 0x40 + tailBits last)) =
      [lead, second, last] := by
  obtain ⟨continues, low, gap, -, -⟩ := isSecond_bounds goesOn
  have secondValue := toNat_of_isContinuation continues
  have lastValue := toNat_of_isContinuation lastGoesOn
  rw [encodeChar, toNat_ofNat_of_isValidChar (by simp only [Nat.isValidChar]; omega)]
  rw [if_neg (by omega), if_neg (by omega), if_pos (by omega)]
  rw [toUInt8_eq_of_eq_toNat lead (by omega),
    toUInt8_eq_of_eq_toNat second (by omega),
    toUInt8_eq_of_eq_toNat last (by omega)]

theorem encodeChar_of_four {lead second third last : UInt8}
    (bounds : 0xF0 ≤ lead.toNat ∧ lead.toNat < 0xF5) (goesOn : isSecond lead second = true)
    (thirdGoesOn : isContinuation third = true) (lastGoesOn : isContinuation last = true) :
    encodeChar (Char.ofNat
        ((((lead.toNat - 0xF0) * 0x40 + tailBits second) * 0x40 + tailBits third) * 0x40 +
          tailBits last)) =
      [lead, second, third, last] := by
  obtain ⟨continues, -, -, low, high⟩ := isSecond_bounds goesOn
  have secondValue := toNat_of_isContinuation continues
  have thirdValue := toNat_of_isContinuation thirdGoesOn
  have lastValue := toNat_of_isContinuation lastGoesOn
  rw [encodeChar, toNat_ofNat_of_isValidChar (by simp only [Nat.isValidChar]; omega)]
  rw [if_neg (by omega), if_neg (by omega), if_neg (by omega)]
  rw [toUInt8_eq_of_eq_toNat lead (by omega),
    toUInt8_eq_of_eq_toNat second (by omega),
    toUInt8_eq_of_eq_toNat third (by omega),
    toUInt8_eq_of_eq_toNat last (by omega)]

/-- A long character is read from a second byte and as many continuation bytes as are needed. -/
theorem exists_of_readLong (decoded : readLong first bits needed rest = .char c behind) :
    ∃ second others, rest = second :: others ∧ isSecond first second = true ∧
      readTail [first, second] (bits * 0x40 + tailBits second) needed others =
        .char c behind := by
  cases rest with
  | nil => simp [readLong] at decoded
  | cons second others =>
      rw [readLong] at decoded
      split at decoded
      · rename_i goesOn
        exact ⟨second, others, rfl, goesOn, decoded⟩
      · simp at decoded

theorem exists_of_readTail_succ
    (decoded : readTail before value (needed + 1) rest = .char c behind) :
    ∃ byte others, rest = byte :: others ∧ isContinuation byte = true ∧
      readTail (before ++ [byte]) (value * 0x40 + tailBits byte) needed others =
        .char c behind := by
  cases rest with
  | nil => simp [readTail] at decoded
  | cons byte others =>
      rw [readTail] at decoded
      split at decoded
      · rename_i continues
        exact ⟨byte, others, rfl, continues, decoded⟩
      · simp at decoded

/-- The bytes of the character that was read stand where it was read. -/
theorem encodeChar_append_of_step (decoded : step first rest = .char c behind) :
    encodeChar c ++ behind = first :: rest := by
  simp only [step] at decoded
  split_ifs at decoded with ascii two three four
  · simp only [Step.char.injEq] at decoded
    obtain ⟨rfl, rfl⟩ := decoded
    rw [encodeChar, toNat_ofNat_of_isValidChar (by left; omega), if_pos ascii,
      toUInt8_eq_of_eq_toNat first rfl]
    rfl
  · obtain ⟨second, others, rfl, goesOn, tail⟩ := exists_of_readLong decoded
    simp only [readTail, Step.char.injEq] at tail
    obtain ⟨rfl, rfl⟩ := tail
    rw [encodeChar_of_two (by omega) (isSecond_bounds goesOn).1]
    rfl
  · obtain ⟨second, others, rfl, goesOn, tail⟩ := exists_of_readLong decoded
    obtain ⟨last, others, rfl, lastGoesOn, tail⟩ := exists_of_readTail_succ tail
    simp only [readTail, Step.char.injEq] at tail
    obtain ⟨rfl, rfl⟩ := tail
    rw [encodeChar_of_three (by omega) goesOn lastGoesOn]
    rfl
  · obtain ⟨second, others, rfl, goesOn, tail⟩ := exists_of_readLong decoded
    obtain ⟨third, others, rfl, thirdGoesOn, tail⟩ := exists_of_readTail_succ tail
    obtain ⟨last, others, rfl, lastGoesOn, tail⟩ := exists_of_readTail_succ tail
    simp only [readTail, Step.char.injEq] at tail
    obtain ⟨rfl, rfl⟩ := tail
    rw [encodeChar_of_four (by omega) goesOn thirdGoesOn lastGoesOn]
    rfl

theorem exists_of_readTail_fault
    (decoded : readTail before value needed rest = .fault faulty kind) :
    ∃ taken, faulty = before ++ taken ∧ taken <+: rest ∧
      ∀ byte ∈ taken, 0x80 ≤ byte.toNat := by
  induction needed generalizing before value rest with
  | zero => simp [readTail] at decoded
  | succ needed ih =>
      cases rest with
      | nil =>
          simp only [readTail, Step.fault.injEq] at decoded
          exact ⟨[], by simp [decoded.1], List.nil_prefix, by simp⟩
      | cons byte rest =>
          rw [readTail] at decoded
          split at decoded
          · rename_i continues
            obtain ⟨taken, rfl, isFront, high⟩ := ih decoded
            have byteHigh := toNat_of_isContinuation continues
            refine ⟨byte :: taken, by simp, List.cons_prefix_cons.mpr ⟨rfl, isFront⟩, ?_⟩
            intro other member
            rcases List.mem_cons.mp member with rfl | member
            · omega
            · exact high other member
          · simp only [Step.fault.injEq] at decoded
            exact ⟨[], by simp [decoded.1], List.nil_prefix, by simp⟩

theorem exists_of_readLong_fault (high : 0x80 ≤ first.toNat)
    (decoded : readLong first bits needed rest = .fault faulty kind) :
    ∃ taken, faulty = first :: taken ∧ taken <+: rest ∧
      ∀ byte ∈ faulty, 0x80 ≤ byte.toNat := by
  cases rest with
  | nil =>
      simp only [readLong, Step.fault.injEq] at decoded
      exact ⟨[], decoded.1.symm, List.nil_prefix, by simpa [← decoded.1] using high⟩
  | cons second rest =>
      rw [readLong] at decoded
      split at decoded
      · rename_i goesOn
        obtain ⟨taken, rfl, isFront, tailHigh⟩ := exists_of_readTail_fault decoded
        have secondHigh := toNat_of_isContinuation (isSecond_bounds goesOn).1
        refine ⟨second :: taken, rfl, List.cons_prefix_cons.mpr ⟨rfl, isFront⟩, ?_⟩
        intro byte member
        simp only [List.cons_append, List.nil_append, List.mem_cons] at member
        rcases member with rfl | rfl | member
        · exact high
        · omega
        · exact tailHigh byte member
      · simp only [Step.fault.injEq] at decoded
        exact ⟨[], decoded.1.symm, List.nil_prefix, by simpa [← decoded.1] using high⟩

/-- The bytes of a fault stand where it was found, and none of them is a character by itself. -/
theorem exists_of_step_fault (decoded : step first rest = .fault faulty kind) :
    ∃ taken, faulty = first :: taken ∧ taken <+: rest ∧
      ∀ byte ∈ faulty, 0x80 ≤ byte.toNat := by
  have single (high : 0x80 ≤ first.toNat) (isFirst : [first] = faulty) :
      ∃ taken, faulty = first :: taken ∧ taken <+: rest ∧
        ∀ byte ∈ faulty, 0x80 ≤ byte.toNat :=
    ⟨[], isFirst.symm, List.nil_prefix, by simpa [← isFirst] using high⟩
  simp only [step] at decoded
  split_ifs at decoded
  · simp only [Step.fault.injEq] at decoded
    exact single (by omega) decoded.1
  · exact exists_of_readLong_fault (by omega) decoded
  · exact exists_of_readLong_fault (by omega) decoded
  · exact exists_of_readLong_fault (by omega) decoded
  · simp only [Step.fault.injEq] at decoded
    exact single (by omega) decoded.1

/-! ## What was encoded is read back -/

theorem toNat_toUInt8_of_lt {code : Nat} (bound : code < 0x100) : code.toUInt8.toNat = code := by
  simp only [Nat.toUInt8, UInt8.toNat_ofNat']
  omega

/-- The byte that goes on with a character, as it is made of six of its bits. -/
theorem isContinuation_tail (bits : Nat) :
    isContinuation (0x80 + bits % 0x40).toUInt8 = true ∧
      tailBits (0x80 + bits % 0x40).toUInt8 = bits % 0x40 := by
  have byte := toNat_toUInt8_of_lt (show 0x80 + bits % 0x40 < 0x100 by omega)
  refine ⟨?_, ?_⟩
  · rw [isContinuation, byte, Bool.and_eq_true, decide_eq_true_iff, decide_eq_true_iff]
    omega
  · rw [tailBits, byte]
    omega

theorem readTail_tail (bits : Nat) :
    readTail before value (needed + 1) ((0x80 + bits % 0x40).toUInt8 :: rest) =
      readTail (before ++ [(0x80 + bits % 0x40).toUInt8]) (value * 0x40 + bits % 0x40) needed
        rest := by
  obtain ⟨continues, own⟩ := isContinuation_tail bits
  rw [readTail, if_pos continues, own]

/--
The second byte of a character is one that may follow the first, unless the character is a half.
-/
theorem isSecond_tail {lead bits : Nat} (bound : lead < 0x100)
    (short : lead = 0xE0 → 0x20 ≤ bits % 0x40) (half : lead = 0xED → bits % 0x40 < 0x20)
    (long : lead = 0xF0 → 0x10 ≤ bits % 0x40) (far : lead = 0xF4 → bits % 0x40 < 0x10) :
    isSecond lead.toUInt8 (0x80 + bits % 0x40).toUInt8 = true := by
  have first := toNat_toUInt8_of_lt bound
  have second := toNat_toUInt8_of_lt (show 0x80 + bits % 0x40 < 0x100 by omega)
  have isByte (code : Nat) (small : code < 0x100) :
      (lead.toUInt8 == code.toUInt8) = decide (lead = code) := by
    have other := toNat_toUInt8_of_lt small
    rw [Bool.eq_iff_iff, beq_iff_eq, decide_eq_true_iff, ← UInt8.toNat_inj, first, other]
  rw [isSecond, (isContinuation_tail bits).1, Bool.true_and, second]
  have e0 := isByte 0xE0 (by omega)
  have ed := isByte 0xED (by omega)
  have f0 := isByte 0xF0 (by omega)
  have f4 := isByte 0xF4 (by omega)
  change (lead.toUInt8 == 0xE0) = _ at e0
  change (lead.toUInt8 == 0xED) = _ at ed
  change (lead.toUInt8 == 0xF0) = _ at f0
  change (lead.toUInt8 == 0xF4) = _ at f4
  rw [e0, ed, f0, f4]
  simp only [decide_eq_true_eq]
  split_ifs with isE0 isED isF0 isF4
  · have := short isE0
    exact decide_eq_true (by omega)
  · have := half isED
    exact decide_eq_true (by omega)
  · have := long isF0
    exact decide_eq_true (by omega)
  · have := far isF4
    exact decide_eq_true (by omega)
  · rfl

/-- The bytes of a character are read as that character. -/
theorem step_encodeChar (c : Char) :
    ∃ first rest, encodeChar c = first :: rest ∧ step first rest = .char c [] := by
  have range := Symbol.toNat_char_cases c
  have whole (value : Nat) (same : value = c.toNat) : Char.ofNat value = c := by
    rw [same, Char.ofNat_toNat]
  have lead (code : Nat) (bound : code < 0x100) : code.toUInt8.toNat = code :=
    toNat_toUInt8_of_lt bound
  rw [encodeChar]
  split_ifs with one two three
  · refine ⟨_, _, rfl, ?_⟩
    simp only [step, lead c.toNat (by omega), if_pos one, whole c.toNat rfl]
  · refine ⟨_, _, rfl, ?_⟩
    rw [step, lead _ (by omega), if_neg (by omega), if_neg (by omega), if_pos (by omega), readLong,
      if_pos (isSecond_tail (by omega) (by omega) (by omega) (by omega) (by omega)), readTail,
      (isContinuation_tail _).2, whole _ (by omega)]
  · refine ⟨_, _, rfl, ?_⟩
    rw [step, lead _ (by omega), if_neg (by omega), if_neg (by omega), if_neg (by omega),
      if_pos (by omega), readLong,
      if_pos (isSecond_tail (by omega) (by omega) (by omega) (by omega) (by omega)),
      (isContinuation_tail _).2, readTail_tail, readTail, whole _ (by omega)]
  · refine ⟨_, _, rfl, ?_⟩
    rw [step, lead _ (by omega), if_neg (by omega), if_neg (by omega), if_neg (by omega),
      if_neg (by omega), if_pos (by omega), readLong,
      if_pos (isSecond_tail (by omega) (by omega) (by omega) (by omega) (by omega)),
      (isContinuation_tail _).2, readTail_tail, readTail_tail, readTail, whole _ (by omega)]

/-- A text without halves of pairs is read back from its bytes. -/
theorem decodeFrom_encode {text : Text} (whole : ∀ symbol ∈ text, symbol.isHalf = false)
    (position : Nat) : decodeFrom position (encode text) = .ok text := by
  induction text generalizing position with
  | nil =>
      rw [encode_nil, decodeFrom]
  | cons symbol rest ih =>
      have others := ih fun other member => whole other (List.mem_cons_of_mem symbol member)
      cases symbol with
      | half offset =>
          have isHalf := whole _ List.mem_cons_self
          cases isHalf
      | char c =>
          obtain ⟨first, behind, bytes, read⟩ := step_encodeChar c
          have encoded : encode (.char c :: rest) = first :: (behind ++ encode rest) := by
            rw [encode, List.flatMap_cons, encodeSymbol, bytes]
            rfl
          have stepped : step first (behind ++ encode rest) = .char c (encode rest) :=
            step_append_of_char read
          rw [encoded, decodeFrom]
          split
          · rename_i decoded
            rw [stepped] at decoded
            obtain ⟨rfl, rfl⟩ := Step.char.inj decoded
            rw [others]
          · rename_i decoded
            rw [stepped] at decoded
            cases decoded

theorem decode_encode {text : Text} (whole : ∀ symbol ∈ text, symbol.isHalf = false) :
    decode (encode text) = .ok text :=
  decodeFrom_encode whole 0

end ApiDocs.Text.Utf8
