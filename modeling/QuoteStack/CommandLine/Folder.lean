/-!
Files for the command: a folder of files and folders in memory, in which paths are looked up as a
file system does, and the little that is known of the rest of the file system.
-/

namespace QuoteStack.CommandLine

/-- What a path may lead to. -/
inductive Entry where
  | file (bytes : List UInt8)
  | folder
  /-- Something that is there and cannot be opened or read, for a reason that is told. -/
  | unreadable (reason : String)

/-- A folder: the entries below it by the parts of their paths. A folder on the way to an entry
exists too. -/
structure Folder where
  entries : List (List String × Entry)

namespace Folder

/-- What the parts of a path, none of them special, lead to from the folder. -/
def entry? (folder : Folder) (parts : List String) : Option Entry :=
  if parts.isEmpty then some .folder
  else
    match folder.entries.lookup parts with
    | some entry => some entry
    | none =>
      if folder.entries.any fun (path, _) => parts.isPrefixOf path then some .folder else none

/-- A place that a path has led to: inside the folder, by the parts of the way, the last one first,
or so many levels above it. -/
inductive Spot where
  | inside (reversed : List String)
  | above (levels : Nat)

/-- What is at a place. All that is known above the folder is that folders are there. -/
def at? (folder : Folder) : Spot → Option Entry
  | .inside reversed => folder.entry? reversed.reverse
  | .above _ => some .folder

/-- Follows one part of a path, which leads on from folders only. -/
def follow? (folder : Folder) (spot : Spot) (part : String) : Option Spot :=
  match folder.at? spot with
  | some .folder =>
    if part == "" || part == "." then some spot
    else if part == ".." then
      match spot with
      | .inside [] => some (.above 0)
      | .inside (_ :: outer) => some (.inside outer)
      | .above levels => some (.above (levels + 1))
    else
      match spot with
      | .inside reversed =>
        let next : Spot := .inside (part :: reversed)
        if (folder.at? next).isSome then some next else none
      | .above _ => none
  | _ => none

/-- What is known of the root folder of the file system: its usual folders, and the file that is
always empty. -/
def root : Folder :=
  let names := ["bin", "boot", "dev", "etc", "home", "lib", "media", "mnt", "opt", "proc", "root",
    "run", "sbin", "srv", "sys", "tmp", "usr", "var"]
  ⟨(["dev", "null"], .file []) :: names.map fun name => ([name], .folder)⟩

/-- The number of bytes from which on a path is too long to lead anywhere. -/
def maxPathBytes : Nat := 4096

/-- What a path leads to; one that starts with a slash starts from the root folder. -/
def lookup? (folder : Folder) (path : String) : Option Entry :=
  if path.isEmpty || maxPathBytes ≤ path.utf8ByteSize then none
  else
    let start := if path.toList.head? == some '/' then root else folder
    ((path.splitOn "/").foldl (fun spot? part => spot? >>= fun spot => start.follow? spot part)
      (some (.inside []))) >>= start.at?

end Folder

end QuoteStack.CommandLine
