import CryptoIntrinsics.Octets
import CryptoIntrinsics.Text.Quoted

namespace CryptoIntrinsics.CommandLine

inductive FileFlaw where
  | missing
  | denied
  | notDirectory
  | isDirectory
  | nameTooLong
  /-- The name holds a character that no name may hold. -/
  | impossibleName
deriving DecidableEq, Repr

def FileFlaw.message (flaw : FileFlaw) (name : String) : String :=
  let (number, words) : Nat × String :=
    match flaw with
    | missing => (2, "No such file or directory")
    | denied => (13, "Permission denied")
    | notDirectory => (20, "Not a directory")
    | isDirectory => (21, "Is a directory")
    | nameTooLong => (36, "File name too long")
    | impossibleName => (22, "Invalid argument")
  s!"[Errno {number}] {words}: {Text.quoted name}"

structure Directory where
  files : List (String × Octets)
deriving DecidableEq, Repr

namespace Directory

def longestName : Nat := 255

/-- Reads a file. A path may hold empty parts and parts of one dot; nothing is found through an
    absolute path or through the directory above. -/
def read (directory : Directory) (path : String) : Except FileFlaw Octets :=
  let parts := (path.splitOn "/").filter fun part => part != "" && part != "."
  let isAbsolute := path.startsWith "/"
  let namesDirectory := path.endsWith "/" || path.endsWith "/."
  if path.toList.contains '\x00' then .error .impossibleName
  else if path.isEmpty then .error .missing
  else
    match parts with
    | [] => .error .isDirectory
    | name :: rest =>
      if longestName < name.utf8ByteSize then .error .nameTooLong
      else if name == ".." then .error (if rest.isEmpty then .isDirectory else .missing)
      else if isAbsolute then .error .missing
      else
        match directory.files.lookup name with
        | none => .error .missing
        | some bytes =>
          if rest.isEmpty && !namesDirectory then .ok bytes else .error .notDirectory

end Directory

end CryptoIntrinsics.CommandLine
