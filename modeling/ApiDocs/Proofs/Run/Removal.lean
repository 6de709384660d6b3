import ApiDocs.Proofs.Glob.Matches
import ApiDocs.Proofs.Run.Files

/-!
# Removing what a pattern matches

The matches of a pattern are found first and taken away one after the other.  So a match goes
missing, and the removal fails, if an earlier match takes it along; and a match that was never
there is missing as well.  Whether that happens is known from the disk as it was.

A link that is matched goes itself, and what it leads to stays.  Whatever becomes of the removal,
only the matches and what stands below them can be gone.
-/

namespace ApiDocs.Run

variable {links : Bool} {environment : Environment} {pattern : Text} {world : World links}
variable {found : List Text}

/-- What it means to remove the matches of a pattern. -/
structure RemovesMatches (pattern : Text) (found : List Text) (before : World links)
    (outcome : Except Failure Unit) (after : World links) : Prop where
  /-- It succeeds exactly if all matches can be taken away and none passes what goes before it. -/
  succeeds_iff : outcome = .ok () ↔
    (∀ path ∈ found, before.disk.IsRemovable before.here path) ∧
      found.Pairwise (before.disk.Spares before.here)
  fails : ∀ failure, outcome = .error failure → ∃ error, failure = refusal "remove" pattern error
  outside : ∀ place, ¬before.disk.belowNames before.here found place →
    after.disk.entryAt place = before.disk.entryAt place
  below : outcome = .ok () → ∀ place, before.disk.belowNames before.here found place →
    after.disk.entryAt place = none
  /-- Only a last piece `**` has matches afterwards, and nothing has a name where they lead. -/
  afterwards : outcome = .ok () → ∃ left,
    Glob.search after.disk after.here pattern = .ok left ∧ left.Sublist found ∧
      (∀ path ∈ left, after.disk.hasName after.here path = false) ∧
      ((Path.split pattern).2 ≠ Glob.everything → left = [])

/--
A project with pages, and with a folder that has the ending of a page.  Another page is a link to a
folder with notes.
-/
def pagesWorld : World true where
  here := ["p"]
  disk :=
    { entries :=
        [(["p"], .folder), (["p", "modules"], .folder), (["p", "modules", "a.ts.md"], .file [97]),
          (["p", "modules", "b.ts.md"], .link "../notes"),
          (["p", "modules", "index.md"], .file [105]), (["p", "notes"], .folder),
          (["p", "notes", "b.md"], .file [98]), (["p", "old.ts.md"], .folder),
          (["p", "old.ts.md", "notes"], .file [110])] }

/-- A page in a folder that has the ending of a page. -/
def nestedPages : World where
  disk := { entries := [(["x.ts.md"], .folder), (["x.ts.md", "a.ts.md"], .file [])] }

end ApiDocs.Run
