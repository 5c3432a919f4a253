import BranchingStory.Json.Printer
import BranchingStory.Json.Reader
import BranchingStory.Json.Record
import BranchingStory.Merge.Renamer
import BranchingStory.Text.Blank

/-!
# Configuration

A story is configured by the id of its root block, the start of all other block ids, and the two
parts of the ids given to renamed entities. A configuration is valid when the root id is not blank
and the suffix length lies within its limits; only reading a settings file insists on that.
-/

namespace BranchingStory

/-- The configuration of a story. -/
structure Config where
  /-- The id of the root block. -/
  rootId : String
  /-- What the ids of all other blocks start with. -/
  childIdStart : String
  /-- What stands between an entity's id and the suffix that makes it new. -/
  renameInfix : String
  /-- How long the suffix is. -/
  renameSuffixLength : Nat
  deriving DecidableEq, Repr

/-- Why a configuration is not valid. -/
inductive ConfigFault where
  | blankRootId
  | suffixTooShort
  | suffixTooLong
  deriving DecidableEq, Repr

/-- What is said about a configuration that is not valid. -/
def ConfigFault.message : ConfigFault → String
  | blankRootId => "invalid config: root_id must not be empty"
  | suffixTooShort => "invalid config: rename_suffix_len must be at least 1"
  | suffixTooLong => "invalid config: rename_suffix_len must be at most 32"

namespace Config

/-- The version of the library. -/
def version : String := "0.1.0"

/-- The configuration that holds unless said otherwise. -/
def default : Config where
  rootId := "__WORLD__"
  childIdStart := "blk_"
  renameInfix := Renamer.defaultInfix
  renameSuffixLength := Renamer.defaultSuffixLength

/-- The first thing that is wrong with a configuration. -/
def fault? (c : Config) : Option ConfigFault :=
  if Text.isBlank c.rootId then some .blankRootId
  else if c.renameSuffixLength = 0 then some .suffixTooShort
  else if Renamer.maxSuffixLength < c.renameSuffixLength then some .suffixTooLong
  else none

/-- The id of a new block with the given distinguishing end. -/
def childId (c : Config) (ending : String) : String := c.childIdStart ++ ending

/-- The renamer that numbers its proposals. -/
def sequentialRenamer (c : Config) : Renamer Nat := .sequential c.renameInfix

/-- The renamer that draws its suffixes. -/
def suffixRenamer (digits : Nat → String) (c : Config) : Renamer Nat :=
  .suffix digits c.renameInfix c.renameSuffixLength

/-- The document of a configuration. -/
def toJson (c : Config) : Json :=
  .object [("root_id", .string c.rootId), ("child_id_prefix", .string c.childIdStart),
    ("rename_infix", .string c.renameInfix),
    ("rename_suffix_len", .number (.integer c.renameSuffixLength))]

/-- The configuration that a document is: what it leaves out is as usual, and other fields are
refused. -/
def ofJson? (j : Json) : Option Config :=
  match j.parts? true ["root_id", "child_id_prefix", "rename_infix", "rename_suffix_len"] with
  | some [rootId, childIdStart, renameInfix, suffixLength] => do
    let rootId ← Json.withDefault? default.rootId Json.string? rootId
    let childIdStart ← Json.withDefault? default.childIdStart Json.string? childIdStart
    let renameInfix ← Json.withDefault? default.renameInfix Json.string? renameInfix
    let length ← Json.withDefault? default.renameSuffixLength Json.count? suffixLength
    pure ⟨rootId, childIdStart, renameInfix, length⟩
  | _ => none

/-- The usual configuration is valid. -/
theorem fault?_default : default.fault? = none := by decide

end Config

end BranchingStory
