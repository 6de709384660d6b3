import ApiDocs.Number.Notation
import ApiDocs.Text.Pair
import ApiDocs.Text.Quoted

/-!
# Why the disk refuses

The causes for which an access to the disk is refused, with the number and the
words that the system gives them.  For other causes the system may refuse to start a
program that stands on the disk.
-/

namespace ApiDocs

/-- Why an access is refused. -/
inductive Cause where
  | noSuchEntry
  | entryInUse
  | entryExists
  | notFolder
  | isFolder
  | notPossible
  | nameTooLong
  | folderNotEmpty
  | tooManyLinks
  /-- A cause that no access to the disk has, with its number and its words. -/
  | other (number : Nat) (sentence : Text)
  deriving DecidableEq, Repr, Inhabited

namespace Cause

/-- The number of a cause. -/
def code : Cause → Nat
  | .noSuchEntry => 2
  | .entryInUse => 16
  | .entryExists => 17
  | .notFolder => 20
  | .isFolder => 21
  | .notPossible => 22
  | .nameTooLong => 36
  | .folderNotEmpty => 39
  | .tooManyLinks => 40
  | .other number _ => number

/-- The words for a cause. -/
def words : Cause → Text
  | .noSuchEntry => "No such file or directory"
  | .entryInUse => "Device or resource busy"
  | .entryExists => "File exists"
  | .notFolder => "Not a directory"
  | .isFolder => "Is a directory"
  | .notPossible => "Invalid argument"
  | .nameTooLong => "File name too long"
  | .folderNotEmpty => "Directory not empty"
  | .tooManyLinks => "Too many levels of symbolic links"
  | .other _ sentence => sentence

end Cause

/-- Why a text is no path at all. -/
inductive PathFault where
  /-- It has a NUL character. -/
  | nullCharacter
  /-- It has halves of pairs, for which there are no bytes. -/
  | unencodable (halves : Text.Halves)
  deriving DecidableEq, Repr, Inhabited

/-- The sentence about halves of pairs, for which there are no bytes. -/
def unencodableText (halves : Text.Halves) : Text :=
  let place : Text :=
    if halves.count ≤ 1 then
      "character \x27" ++ Text.codeEscape (.ofCode halves.first) ++
        "\x27 in position " ++ Number.intText halves.position
    else
      "characters in position " ++ Number.intText halves.position ++ "-" ++
        Number.intText ((halves.position : Int) + halves.count - 1)
  "'utf-8' codec can't encode " ++ place ++ ": surrogates not allowed"

/-- A refused access: its cause and the path as it was given, or a path that is none. -/
inductive DiskError where
  | refused (cause : Cause) (path : Text)
  | notAPath (fault : PathFault)
  deriving DecidableEq, Repr, Inhabited

/-- The sentence for a refused access. -/
def DiskError.message : DiskError → Text
  | .refused cause path =>
    "[Errno " ++ Number.intText cause.code ++ "] " ++ cause.words ++ ": " ++ Text.quoted path
  | .notAPath .nullCharacter => "embedded null byte"
  | .notAPath (.unencodable halves) => unencodableText halves

end ApiDocs
