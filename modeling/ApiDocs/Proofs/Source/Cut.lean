import Mathlib.Data.List.Forall2
import ApiDocs.Module.Signature
import ApiDocs.Proofs.Source.Entry
import ApiDocs.Proofs.Text.Boundary

/-!
# Signatures end at the body

The signature of a form with a body is its text up to the body.  The text and the two offsets that
decide where it is cut are decoded separately, from three different ranges of bytes.  In a source
that decodes they fit together: where the form and its body begin and end at boundaries of
characters, the offsets count the characters in front, and the cut takes exactly the characters
between the beginning of the form and its body.
-/

namespace ApiDocs

open Text.Utf8

theorem Text.takeSigned_length (head tail : Text) :
    takeSigned head.length (head ++ tail) = head := by
  rw [takeSigned, if_neg (by omega), Int.toNat_natCast, List.take_left]

/-- A body that lies in the text of a form, where all of them begin and end between characters. -/
structure Node.IsBodyIn (text : Text) (node outer body : Node) : Prop where
  isBody : node.at? "body" = some body
  start : IsBoundary text outer.start
  bodyStart : IsBoundary text body.start
  stop : IsBoundary text outer.stop
  startsBefore : outer.start ≤ body.start
  endsBehind : body.start ≤ outer.stop

/-- A form is cut at its body: offsets count characters, and the signature is what lies between. -/
structure CallForm.IsCutAt (source : SourceBytes) (outer body : Node) (form : CallForm) : Prop where
  start : source.charsBefore outer.start = .ok form.start
  bodyStart : ∃ offset, source.charsBefore body.start = .ok offset ∧ form.bodyStart = some offset
  text : source.textOf outer = .ok form.text
  signature :
    (SourceBytes.decode ((source.drop outer.start).take (body.start - outer.start))).map
      Text.trimEnd = .ok (Signature.beforeBody form)

namespace SourceBytes

theorem decode_eq_ok_iff {bytes : SourceBytes} {text : Text} :
    decode bytes = .ok text ↔ encode text = bytes ∧ IsWhole text := by
  rw [← Text.Utf8.decode_eq_ok_iff, decode]
  cases Text.Utf8.decode bytes <;> simp [Except.mapError]

section Pieces

variable {text front piece : Text}

theorem charsBefore_encode (whole : IsWhole text) (isFront : front <+: text) :
    charsBefore (encode text) (encode front).length = .ok front.length := by
  have decoded : decode (encode front) = .ok front :=
    decode_eq_ok_iff.mpr ⟨rfl, whole.of_prefix isFront⟩
  rw [charsBefore, take_encode isFront, decoded]
  rfl

theorem decode_take_drop_encode (whole : IsWhole text) (isFront : front ++ piece <+: text) :
    decode (((encode text).drop (encode front).length).take
      ((encode (front ++ piece)).length - (encode front).length)) = .ok piece := by
  rw [take_drop_encode isFront]
  have wholePiece := (whole.of_prefix isFront).of_suffix (List.suffix_append front piece)
  exact decode_eq_ok_iff.mpr ⟨rfl, wholePiece⟩

end Pieces

end SourceBytes

/-- A form with a body between boundaries can be made, and is cut at the body. -/
theorem callForm_isCutAt {source : SourceBytes} {text : Text} {node outer body : Node}
    (decoded : source.decode = .ok text) (within : node.IsBodyIn text outer body)
    (name : Option Text) (jsdocs : List Text) :
    ∃ form, callForm source name node outer jsdocs = .ok form ∧
      form.IsCutAt source outer body := by
  obtain ⟨rfl, whole⟩ := SourceBytes.decode_eq_ok_iff.mp decoded
  -- The pieces in front of the form, up to its body, and up to its end.
  obtain ⟨before, isBefore, startAt⟩ :=
    within.start.exists_piece whole List.nil_prefix (Nat.zero_le _)
  rw [List.nil_append] at isBefore startAt
  obtain ⟨head, isHead, bodyAt⟩ :=
    within.bodyStart.exists_piece whole isBefore (startAt ▸ within.startsBefore)
  obtain ⟨tail, isTail, stopAt⟩ :=
    within.stop.exists_piece whole isHead (bodyAt ▸ within.endsBehind)
  have start := SourceBytes.charsBefore_encode whole isBefore
  have bodyStart := SourceBytes.charsBefore_encode whole isHead
  have between := SourceBytes.decode_take_drop_encode whole isHead
  rw [List.append_assoc] at isTail stopAt
  have textOf := SourceBytes.decode_take_drop_encode whole isTail
  rw [startAt] at start
  rw [bodyAt] at bodyStart
  rw [startAt, bodyAt] at between
  rw [startAt, stopAt] at textOf
  have shown : SourceBytes.textOf (encode text) outer = .ok (head ++ tail) := textOf
  refine ⟨{ name, text := head ++ tail, start := before.length
            bodyStart := some (before ++ head).length, jsdocs }, ?_, start, ⟨_, bodyStart, rfl⟩,
    shown, ?_⟩
  · simp only [callForm, shown, start, within.isBody, bodyStart]
    rfl
  · rw [between]
    have offset : ((before ++ head).length : Int) - before.length = head.length := by
      rw [List.length_append]
      omega
    simp only [Signature.beforeBody, offset, Text.takeSigned_length]
    rfl

/-! ## The forms of a file -/

/-- A member was read as an entry, whose form is cut at the body of the member. -/
structure MemberEntry.IsCut (source : SourceBytes) (text : Text) (pair : List Node × Node)
    (entry : MemberEntry) : Prop where
  isOf : ∃ scope, MemberEntry.IsOf source scope pair.1 pair.2 entry
  form : ∀ form ∈ entry.form?, ∀ body, pair.2.IsBodyIn text pair.2 body →
    form.IsCutAt source pair.2 body

/-- At a site an entry was read, whose forms are cut at their bodies. -/
structure SiteEntry.IsCut (source : SourceBytes) (text : Text) (site : Site) (entry : SiteEntry) :
    Prop where
  given : ∃ scope, site.Gives source scope entry
  function : ∀ form ∈ entry.form?, ∀ body, site.node.IsBodyIn text site.outer body →
    form.call.IsCutAt source site.outer body
  members : ∀ declaration ∈ entry.class?, ∃ members, declaration.IsMadeOf members ∧
    List.Forall₂ (MemberEntry.IsCut source text) (ClassDeclaration.memberNodes site.node) members

section Forms

variable {source : SourceBytes} {text : Text} {scope : Scope}

/-- Whatever form was made of nodes with a body is the one that is cut there. -/
theorem CallForm.isCutAt_of_callForm {node outer body : Node} {name : Option Text}
    {jsdocs : List Text} {form : CallForm} (decoded : source.decode = .ok text)
    (made : callForm source name node outer jsdocs = .ok form)
    (within : node.IsBodyIn text outer body) : form.IsCutAt source outer body := by
  obtain ⟨other, same, isCut⟩ := callForm_isCutAt decoded within name jsdocs
  rw [made] at same
  cases same
  exact isCut

theorem MemberEntry.IsOf.isCut {comments : List Node} {member : Node} {entry : MemberEntry}
    (decoded : source.decode = .ok text)
    (isOf : MemberEntry.IsOf source scope comments member entry) :
    MemberEntry.IsCut source text (comments, member) entry := by
  refine ⟨⟨scope, isOf⟩, ?_⟩
  cases isOf with
  | constructor _ _ _ _ made =>
      rintro _ ⟨⟩ body within
      exact CallForm.isCutAt_of_callForm decoded made within
  | method _ _ _ _ _ _ _ made =>
      rintro _ ⟨⟩ body within
      exact CallForm.isCutAt_of_callForm decoded made within
  | property | other | nameless | accessor => exact nofun

theorem Site.Gives.isCut {site : Site} {entry : SiteEntry} (decoded : source.decode = .ok text)
    (given : site.Gives source scope entry) : SiteEntry.IsCut source text site entry := by
  refine ⟨⟨scope, given⟩, ?_, ?_⟩
  · rintro form isForm body within
    cases given with
    | function _ _ _ made _ =>
        cases isForm
        exact CallForm.isCutAt_of_callForm decoded made within
    | interface | typeAlias | classLike | binding | specifier => cases isForm
  · rintro declaration isClass
    cases entry with
    | classLike =>
        cases isClass
        obtain ⟨members, isMadeOf, areOf⟩ := given.exists_members
        exact ⟨members, isMadeOf, areOf.imp fun _ _ isOf => isOf.isCut decoded⟩
    | interface | typeAlias | function | binding | specifier => cases isClass

end Forms

/--
The signature of a form ends at its body, in every source that decodes.  Where a form and its body
begin and end between characters, the form can be made, its offsets count characters, and its
signature is what the bytes between its beginning and its body decode to, without the blanks at
the end.  So it is for every function, method and constructor of a file that was read.
-/
theorem signatures_end_at_bodies {source : SourceBytes} {text : Text}
    (decoded : source.decode = .ok text) :
    (∀ node outer body, node.IsBodyIn text outer body → ∀ name jsdocs,
      ∃ form, callForm source name node outer jsdocs = .ok form ∧
        form.IsCutAt source outer body) ∧
    ∀ path root file, SourceFile.ofTree path source root = .ok file →
      ∃ entries, file.IsMadeOf entries ∧
        List.Forall₂ (SiteEntry.IsCut source text) (Site.ofTree root) entries := by
  constructor
  · intro node outer body within name jsdocs
    exact callForm_isCutAt decoded within name jsdocs
  · intro path root file read
    obtain ⟨-, entries, given, isMadeOf, -⟩ := SourceFile.exists_entries read
    exact ⟨entries, isMadeOf, given.forall₂.imp fun _ _ ⟨_, gives⟩ => gives.isCut decoded⟩

/-- A function and a method among characters of two, three and four bytes. -/
def wideText : Text :=
  "/* é */\nexport function ƒ(x: \"€\") \x7b\x7d\nclass A \x7b m(y: \"💡\") \x7b\x7d \x7d"

def wideBody : Node :=
  .mk "statement_block" true 38 40 (some "body") []

def wideFunction : Node :=
  .mk "function_declaration" true 16 40 (some "declaration")
    [.mk "function" false 16 24 none [], .mk "identifier" true 25 27 (some "name") [],
      .mk "formal_parameters" true 27 37 (some "parameters") [], wideBody]

def wideExport : Node :=
  .mk "export_statement" true 9 40 none [.mk "export" false 9 15 none [], wideFunction]

def wideFile : Node :=
  .mk "program" true 0 68 none
    [.mk "comment" true 0 8 none [], wideExport,
      .mk "class_declaration" true 41 68 none
        [.mk "class" false 41 46 none [], .mk "type_identifier" true 47 48 (some "name") [],
          .mk "class_body" true 49 68 (some "body")
            [.mk "\x7b" false 49 50 none [],
              .mk "method_definition" true 51 66 none
                [.mk "property_identifier" true 51 52 (some "name") [],
                  .mk "formal_parameters" true 52 63 (some "parameters") [],
                  .mk "statement_block" true 64 66 (some "body") []],
              .mk "\x7d" false 67 68 none []]]]

/-- The signatures of the functions and of the methods in a file. -/
def SourceFile.signatures (file : SourceFile) : List Text :=
  (file.functions.flatMap fun function =>
      Signature.ofForms function.overloads function.implementation) ++
    (file.classes.flatMap ClassDeclaration.methods).flatMap fun method =>
      Signature.ofForms method.overloads method.implementation

def wideSignatures : List Text :=
  ["export function ƒ(x: \"€\")", "m(y: \"💡\")"]

theorem wideFunction_isBodyIn : wideFunction.IsBodyIn wideText wideExport wideBody where
  isBody := rfl
  start := ⟨"/* é */\n", by decide +kernel, by decide +kernel⟩
  bodyStart := ⟨"/* é */\nexport function ƒ(x: \"€\") ", by decide +kernel, by decide +kernel⟩
  stop := ⟨"/* é */\nexport function ƒ(x: \"€\") \x7b\x7d", by decide +kernel, by decide +kernel⟩
  startsBefore := by decide
  endsBehind := by decide

/-- Characters of several bytes do not shift where the signatures end. -/
theorem wideFile_signatures_end_at_bodies :
    (∃ form, callForm (encode wideText) (some "ƒ") wideFunction wideExport [] = .ok form ∧
      form.IsCutAt (encode wideText) wideExport wideBody) ∧
    ∃ file, SourceFile.ofTree "a.ts" (encode wideText) wideFile = .ok file ∧
      file.signatures = wideSignatures ∧
      ∃ entries, file.IsMadeOf entries ∧
        List.Forall₂ (SiteEntry.IsCut (encode wideText) wideText) (Site.ofTree wideFile)
          entries := by
  have decoded : SourceBytes.decode (encode wideText) = .ok wideText :=
    SourceBytes.decode_eq_ok_iff.mpr ⟨rfl, by decide +kernel⟩
  obtain ⟨forms, files⟩ := signatures_end_at_bodies decoded
  refine ⟨forms _ _ _ wideFunction_isBodyIn _ _, ?_⟩
  have shown : ((SourceFile.ofTree "a.ts" (encode wideText) wideFile).map
      SourceFile.signatures).toOption = some wideSignatures := by
    decide +kernel
  obtain ⟨file, read, same⟩ := exists_of_toOption_map shown
  exact ⟨file, read, same, files _ _ _ read⟩

end ApiDocs
