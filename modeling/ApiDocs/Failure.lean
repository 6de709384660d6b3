import ApiDocs.Json.Writer
import ApiDocs.Settings.Problem
import ApiDocs.Text.Utf8
import ApiDocs.Yaml.Failure

/-!
# How a run can fail

A run ends with a *failure*.  Four kinds of failure are foreseen and reported with
a sentence: refused settings, rejected sources, examples that do not pass, and a
file that cannot be used.  The fifth kind holds the *faults*: input that a part of
the program was not made for, and for which it has no sentence of its own.
-/

namespace ApiDocs

/-- Input that a part of the program was not made for. -/
inductive Fault where
  /-- A file is not in the encoding. -/
  | undecodable (failure : Text.Utf8.Failure)
  /-- A text has halves of pairs, for which there are no bytes. -/
  | unencodable (halves : Text.Halves)
  /-- A document goes beyond a limit of its reader. -/
  | document (failure : Json.Failure)
  /-- An integer has too many digits to be shown. -/
  | unshowable
  /-- A scalar of a document does not denote what it claims to denote, or nesting is too deep. -/
  | scalar (failure : Yaml.Failure)
  /-- A value has no place in a document. -/
  | unwritable (problem : Json.Unwritable)
  /-- A module has no path. -/
  | emptyModulePath
  /-- A cast has no target. -/
  | castWithoutTarget
  /-- The disk refuses an access outside of the foreseen ones. -/
  | disk (error : DiskError)
  deriving Inhabited

/-- Something is nested deeper than its reader can follow. -/
def Fault.tooDeep : Fault :=
  .scalar .tooDeep

/-- The sentence about bytes that are not in the encoding. -/
def undecodableText (failure : Text.Utf8.Failure) : Text :=
  let place :=
    match failure.bytes with
    | [byte] =>
      "byte 0x" ++ Text.hexDigits 2 byte.toNat ++ " in position " ++
        Number.intText failure.position
    | bytes =>
      "bytes in position " ++ Number.intText failure.position ++ "-" ++
        Number.intText ((failure.position : Int) + bytes.length - 1)
  "'utf-8' codec can't decode " ++ place ++ ": " ++ failure.fault.reason

/-- The sentence about a scalar that does not denote what it claims to denote. -/
def scalarText : Yaml.Failure → Text
  | .malformed => "the document is not well formed"
  | .invalidNumber sentence => sentence
  | .emptyNumber => "string index out of range"
  | .unknownTruth word => Text.quoted word
  | .notAnInstant => "'NoneType' object has no attribute 'groupdict'"
  | .codeTooLarge => "chr() arg not in range(0x110000)"
  | .codeBeyondWord => "Python int too large to convert to C int"
  | .numberTooLarge => "int too large to convert to float"
  | .collectionAsInstant => "expected string or bytes-like object, got 'list'"
  | .endlessDefault | .tooDeep => "maximum recursion depth exceeded"

/-- The sentence for a fault. -/
def Fault.message : Fault → Text
  | .undecodable failure => undecodableText failure
  | .unencodable halves => unencodableText halves
  | .document failure => failure.message
  | .unshowable => Number.unshowableText
  | .scalar failure => scalarText failure
  | .unwritable problem => problem.message
  | .emptyModulePath => "tuple index out of range"
  | .castWithoutTarget => "list index out of range"
  | .disk error => error.message

/-- Why a run ended. -/
inductive Failure where
  | settings (problem : SettingsProblem)
  | rejected (errors : List Text)
  | examples (report : Text)
  | resource (path sentence : Text)
  | fault (cause : Fault)
  deriving Inhabited

/-- The sentence for a failure. -/
def Failure.message : Failure → Text
  | .settings problem => problem.message
  | .rejected errors => Text.joinWith "\n" errors
  | .examples report => report
  | .resource _ sentence => sentence
  | .fault cause => cause.message

/-- Whether a failure is foreseen and reported with a sentence. -/
def Failure.isForeseen : Failure → Bool
  | .fault _ => false
  | _ => true

end ApiDocs
