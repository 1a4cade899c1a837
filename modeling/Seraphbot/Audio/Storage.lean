import Seraphbot.Core.Path

/-!
# The file system

What `std::filesystem` shows of the files: the type of a path, the entries of a
directory, and the canonical form of a path.  All of it is taken at one moment.

Asking for the type of a path may throw: when a name is too long, a directory must
not be searched, or links lead in a circle.  That nothing is there is an answer and
not an error.

A `Storage` is any such view that is coherent in the way the bot relies on.  Paths
are passed to the system as C strings.  A directory lists names, and it lists at least
those under which there is a regular file, spelled exactly so, unless an error ends
the iteration: the file system is case-sensitive.
-/

namespace Seraphbot

/-- `std::filesystem::file_type`, as far as it is asked for. -/
inductive FileType where
  | notFound
  | regular
  | directory
  | other
deriving DecidableEq

/-- A name a directory can list. -/
def IsName (name : Bytes) : Prop :=
  name ≠ [] ∧ byte '/' ∉ name ∧ 0 ∉ name ∧ name ≠ bytes "." ∧ name ≠ bytes ".."

instance (name : Bytes) : Decidable (IsName name) :=
  inferInstanceAs (Decidable
    (name ≠ [] ∧ byte '/' ∉ name ∧ 0 ∉ name ∧ name ≠ bytes "." ∧ name ≠ bytes ".."))

/-- The files at one moment. -/
structure Storage where
  /-- The type of the file a path leads to, `none` when `std::filesystem::status`
  throws. -/
  status : Path → Option FileType
  /-- The rounds of a loop over `std::filesystem::directory_iterator`: the name of an
  entry and its type, `none` when the iterator throws or asking for the type does. -/
  entries : Path → List (Option (Bytes × FileType))
  /-- `std::filesystem::weakly_canonical`, `none` when it throws. -/
  weaklyCanonical : Path → Option Path
  status_cString (p : Path) : status p = status (cString p)
  isName_of_mem {d : Path} {name : Bytes} {type : FileType} :
    some (name, type) ∈ entries d → IsName name
  mem_of_regular {d : Path} {name : Bytes} : status d = some .directory → none ∉ entries d →
    IsName name → status (Path.join d name) = some .regular → some (name, .regular) ∈ entries d
  type_of_mem {d : Path} {name : Bytes} {type type' : FileType} : 0 ∉ d →
    some (name, type) ∈ entries d → status (Path.join d name) = some type' → type' = type
  absolute {p q : Path} : weaklyCanonical p = some q → Path.isAbsolute q = true

namespace Storage

variable (disk : Storage)

/-- `std::filesystem::exists`, `none` when it throws. -/
def isThere (p : Path) : Option Bool := (disk.status p).map (· ≠ .notFound)

/-- `std::filesystem::is_directory`. -/
def isDirectory (p : Path) : Option Bool := (disk.status p).map (· = .directory)

/-- `std::filesystem::is_regular_file`. -/
def isRegularFile (p : Path) : Option Bool := (disk.status p).map (· = .regular)

end Storage

end Seraphbot
