import Lexer.Files.Fault
import Lexer.Files.Path

/-! # File trees

A tree of directories and files, without links.  **A location** names an entry by the names that lead
to it from the root, the innermost one first, so that the location of a directory is what remains of
a location in it without its first name.  A path is **walked** step by step from the root or from the
working directory; every step must start in a directory.  An operation that is refused leaves the
tree as it was. -/

namespace Lexer.Files

/-- **A location**: the names that lead to an entry, the innermost one first. -/
abbrev Location := List Text

/-- **An entry** of a tree. -/
inductive Entry where
  /-- A directory. -/
  | directory
  /-- A file with its bytes. -/
  | file (content : List UInt8)
  deriving DecidableEq, Repr

/-- **A file tree.** -/
structure Tree where
  /-- The entries by their locations. -/
  entries : List (Location × Entry)
  /-- The location of the working directory. -/
  home : Location
  deriving DecidableEq, Repr

namespace Tree

/-! ## (1) Entries -/

/-- The entry at a location. -/
def find? (tree : Tree) (location : Location) : Option Entry :=
  tree.entries.lookup location

/-- The tree without the entry at a location. -/
def erase (tree : Tree) (location : Location) : Tree :=
  { tree with entries := tree.entries.filter fun entry => !decide (entry.1 = location) }

/-- The tree with a given entry at a location. -/
def put (tree : Tree) (location : Location) (entry : Entry) : Tree :=
  { tree with entries := (location, entry) :: (tree.erase location).entries }

/-- Nothing is left at a location that was erased. -/
@[simp] theorem find?_erase_self (tree : Tree) (location : Location) :
    (tree.erase location).find? location = none := by
  simp only [find?, erase]
  induction tree.entries with
  | nil => rfl
  | cons first rest ih =>
      obtain ⟨place, entry⟩ := first
      by_cases erased : place = location
      · simpa [erased] using ih
      · simpa [erased, List.lookup_cons, beq_eq_false_iff_ne.2 (Ne.symm erased)] using ih

/-- Erasing a location leaves the entries at all others. -/
theorem find?_erase_of_ne {location other : Location} (different : other ≠ location)
    (tree : Tree) : (tree.erase location).find? other = tree.find? other := by
  simp only [find?, erase]
  induction tree.entries with
  | nil => rfl
  | cons first rest ih =>
      obtain ⟨place, entry⟩ := first
      by_cases erased : place = location
      · subst erased
        simpa [List.lookup_cons, beq_eq_false_iff_ne.2 different] using ih
      · by_cases same : other = place
        · simp [erased, same]
        · simpa [List.lookup_cons, erased, beq_eq_false_iff_ne.2 same] using ih

/-- The entry that was put at a location is there. -/
@[simp] theorem find?_put_self (tree : Tree) (location : Location) (entry : Entry) :
    (tree.put location entry).find? location = some entry := by
  simp [find?, put]

/-- Putting an entry at a location leaves the entries at all others. -/
theorem find?_put_of_ne {location other : Location} (different : other ≠ location)
    (tree : Tree) (entry : Entry) : (tree.put location entry).find? other = tree.find? other := by
  have erased := find?_erase_of_ne different tree
  simp only [find?] at erased
  simpa [find?, put, List.lookup_cons, beq_eq_false_iff_ne.2 different] using erased

/-- The location of a working directory in the root, under a name that no path spells. -/
def freshHome : Location :=
  [['/']]

/-- A tree with nothing but a working directory. -/
def fresh : Tree :=
  ⟨[([], .directory), (freshHome, .directory)], freshHome⟩

/-! ## (2) Walking -/

/-- The first number of bytes that a name may not have. -/
def nameLimit : Nat := 256

/-- The first number of bytes that a path may not have. -/
def pathLimit : Nat := 4096

/-- The fault of a path that leads nowhere in any tree. -/
def pathFault? (path : Path) : Option Fault :=
  if path.text.contains '\x00' then some .zeroInPath
  else if pathLimit ≤ path.text.byteLength then some .tooLong
  else if path.text.isEmpty then some .notFound
  else none

/-- A location that has to be a directory. -/
def requireDirectory (tree : Tree) (location : Location) : Except Fault Unit :=
  match tree.find? location with
  | some .directory => .ok ()
  | some (.file _) => .error .notDirectory
  | none => .error .notFound

/-- The entry with a name in a directory, if there is one. -/
def child? (tree : Tree) (directory : Location) (name : Text) : Except Fault (Option Entry) :=
  if nameLimit ≤ name.byteLength then .error .tooLong else .ok (tree.find? (name :: directory))

/-- **One step** from a location.  The directory above the root is the root. -/
def step (tree : Tree) (location : Location) (name : Text) : Except Fault Location := do
  tree.requireDirectory location
  if name = Path.here then return location
  else if name = Path.above then return location.tail
  else
    match ← tree.child? location name with
    | some _ => return name :: location
    | none => throw .notFound

/-- **Walk** some steps from a location. -/
def walk (tree : Tree) (location : Location) : List Text → Except Fault Location
  | [] => .ok location
  | name :: names => tree.step location name >>= fun reached => walk tree reached names

/-- The location where a path starts. -/
def origin (tree : Tree) (path : Path) : Location :=
  if path.isAbsolute then [] else tree.home

/-- **The location** of the entry that a path leads to. -/
def locate (tree : Tree) (path : Path) : Except Fault Location :=
  match pathFault? path with
  | some fault => .error fault
  | none => do
      let location ← tree.walk (tree.origin path) path.steps
      if path.endsInSlash then tree.requireDirectory location
      return location

/-- **The place** that a path leads to, whether there is an entry or not. -/
inductive Place where
  /-- The path ends in a dot, two dots or the root, so it leads to a directory that is there. -/
  | inside
  /-- The path ends in a name in a directory. -/
  | named (directory : Location) (name : Text)
  deriving DecidableEq, Repr

/-- The place that some steps lead to, of which the last one comes first. -/
def placeOf (tree : Tree) (origin : Location) : List Text → Except Fault Place
  | [] => .ok .inside
  | name :: earlier => do
      let directory ← tree.walk origin earlier.reverse
      tree.requireDirectory directory
      if name = Path.here ∨ name = Path.above then return .inside else return .named directory name

/-- **Find the place** that a path leads to. -/
def place (tree : Tree) (path : Path) : Except Fault Place :=
  match pathFault? path with
  | some fault => .error fault
  | none => tree.placeOf (tree.origin path) path.steps.reverse

/-! ## (3) Operations -/

/-- A path leads to a directory. -/
def isDirectory (tree : Tree) (path : Path) : Bool :=
  match tree.locate path with
  | .ok location => tree.find? location = some .directory
  | .error _ => false

/-- The entry that a path leads to. -/
def openEntry (tree : Tree) (path : Path) : Except Fault Entry := do
  match tree.find? (← tree.locate path) with
  | some entry => return entry
  | none => throw .notFound

/-- **Make a directory** where there is nothing. -/
def makeDirectory (tree : Tree) (path : Path) : Except Fault Tree := do
  match ← tree.place path with
  | .inside => throw .alreadyThere
  | .named directory name =>
      match ← tree.child? directory name with
      | some _ => throw .alreadyThere
      | none => return tree.put (name :: directory) .directory

/-- **Write a file**, which is made or overwritten. -/
def write (tree : Tree) (path : Path) (content : List UInt8) : Except Fault Tree := do
  match ← tree.place path with
  | .inside => throw .isDirectory
  | .named directory name =>
      if path.endsInSlash then throw .isDirectory
      else
        match ← tree.child? directory name with
        | some .directory => throw .isDirectory
        | _ => return tree.put (name :: directory) (.file content)

/-- **Remove a file.** -/
def remove (tree : Tree) (path : Path) : Except Fault Tree := do
  match ← tree.place path with
  | .inside => throw .isDirectory
  | .named directory name =>
      match ← tree.child? directory name with
      | some .directory => throw .isDirectory
      | some (.file _) =>
          if path.endsInSlash then throw .notDirectory else return tree.erase (name :: directory)
      | none => throw .notFound

/-- **Rename a file**, which replaces a file at the new path. -/
def rename (tree : Tree) (old new : Path) : Except Fault Tree := do
  match ← tree.place old, ← tree.place new with
  | .named oldDirectory oldName, .named newDirectory newName =>
      match ← tree.child? oldDirectory oldName with
      | none => throw .notFound
      | some .directory => throw .isDirectory
      | some (.file content) =>
          let there ← tree.child? newDirectory newName
          if old.endsInSlash ∨ new.endsInSlash then throw .notDirectory
          else if there = some .directory then throw .isDirectory
          else
            return (tree.erase (oldName :: oldDirectory)).put (newName :: newDirectory)
              (.file content)
  | _, _ => throw .busy

/-! ## (4) Listing -/

/-- The names below a location that lead to another one, the outermost first. -/
def namesBelow? (above location : Location) : Option (List Text) :=
  if above.isSuffixOf location then
    some (location.take (location.length - above.length)).reverse
  else none

/-- Names with slashes between them. -/
def pathOf : List Text → Text
  | [] => []
  | [name] => name
  | name :: names => name ++ '/' :: pathOf names

/-- **The entries below the working directory** with their paths, in no particular order. -/
def listing (tree : Tree) : List (Text × Entry) :=
  tree.entries.filterMap fun (location, entry) =>
    match namesBelow? tree.home location with
    | some (name :: names) => some (pathOf (name :: names), entry)
    | _ => none

end Tree

end Lexer.Files
