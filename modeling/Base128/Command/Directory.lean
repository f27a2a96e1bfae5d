import Base128.Command.Invocation

/-! # A directory of files

The files at hand are a parameter of the program, and this is the instance of it for a
directory that holds files and no other directory. Of what lies outside nothing is known
but that the parents exist.
-/

namespace Base128

/-- Files by name. -/
abbrev Directory := List (String × Bytes)

namespace Directory

/-- Where a path can lead: to the directory itself, to one of its parents, or to a file. -/
inductive Place where
  | inside
  | outside
  | file (bytes : Bytes)
deriving DecidableEq, Repr

/-- In bytes, as `longestPath`. -/
def longestName : Nat := 255

def longestPath : Nat := 4095

/-- A path, cut at its slashes. -/
def parts : List Char → List (List Char)
  | [] => [[]]
  | '/' :: rest => [] :: parts rest
  | c :: rest =>
    match parts rest with
    | [] => [[c]]
    | part :: others => (c :: part) :: others

/-- Follows one more part of a path. Only a directory has parts, even the empty one behind
a final slash. -/
def follow (directory : Directory) (place : Place) (part : String) : Except FileError Place :=
  match place with
  | .file _ => .error .notDirectory
  | .inside | .outside =>
    if part = "" || part = "." then .ok place
    else if part = ".." then .ok .outside
    else if longestName < part.utf8ByteSize then .error .nameTooLong
    else match place, directory.lookup part with
      | .inside, some bytes => .ok (.file bytes)
      | _, _ => .error .notFound

/-- The length of the whole path is looked at before any part of it. -/
def read (directory : Directory) : Files := fun path =>
  let start := if path.toList.head? = some '/' then Place.outside else Place.inside
  if path = "" then .error .notFound
  else if longestPath < path.utf8ByteSize then .error .nameTooLong
  else match ((parts path.toList).map String.ofList).foldlM directory.follow start with
    | .error error => .error error
    | .ok (.file bytes) => .ok bytes
    | .ok _ => .error .isDirectory

theorem parts_of_notMem {text : List Char} (h : '/' ∉ text) : parts text = [text] := by
  induction text with
  | nil => rfl
  | cons c rest ih =>
    rw [List.mem_cons, not_or] at h
    rw [parts, ih h.2]
    rintro rfl
    exact h.1 rfl

/-- **A plain name leads to the file of that name.** -/
theorem read_name (directory : Directory) {name : String} (hslash : '/' ∉ name.toList)
    (hempty : name ≠ "") (hself : name ≠ ".") (hparent : name ≠ "..")
    (hshort : name.utf8ByteSize ≤ longestName) :
    directory.read name =
      match directory.lookup name with
      | some bytes => .ok bytes
      | none => .error .notFound := by
  have hpath : ¬ longestPath < name.utf8ByteSize := by
    unfold longestPath
    unfold longestName at hshort
    omega
  have hstart : name.toList.head? ≠ some '/' := fun h => hslash (List.mem_of_mem_head? h)
  have hlong : ¬ longestName < name.utf8ByteSize := by omega
  simp only [read, if_neg hpath, if_neg hstart, parts_of_notMem hslash,
    List.map_cons, List.map_nil, String.ofList_toList, List.foldlM_cons, List.foldlM_nil, follow,
    hempty, hself, hparent, hlong]
  cases directory.lookup name <;> rfl

end Directory

end Base128
