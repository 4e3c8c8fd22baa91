import Lexer.Files.Store
import Lexer.Proofs.Files.Paths
import Lexer.Proofs.Outcome

/-! # Places in a tree

Which place a path leads to depends on the directories of a tree alone.  A tree that has all directories of
another one therefore leads every path of it to the same place, whatever happened to its files.  Every
operation is settled by that place and by the entry that is there. -/

namespace Lexer.Files.Tree

variable {tree before after : Tree} {location reached directory : Location} {name : Text}
  {path : Path}

/-! ## (1) Steps and walks -/

/-- A directory is required exactly where there is one. -/
theorem requireDirectory_eq_ok_iff :
    tree.requireDirectory location = .ok () ↔ tree.find? location = some .directory := by
  rw [requireDirectory]
  split
  · next found => simp [found]
  · next found => simp [found]
  · next found => simp [found]

/-- A child is looked up under a short name. -/
theorem child?_eq_ok_iff {entry : Option Entry} : tree.child? directory name = .ok entry ↔
    name.byteLength < nameLimit ∧ tree.find? (name :: directory) = entry := by
  rw [child?]
  split
  · next long => simp [Nat.not_lt_of_le long]
  · next short => simp [Nat.lt_of_not_le short]

/-- **Where one step leads** from a directory. -/
inductive Next (tree : Tree) (location : Location) : Text → Location → Prop where
  /-- A dot stays. -/
  | here : Next tree location Path.here location
  /-- Two dots go to the directory above. -/
  | above : Next tree location Path.above location.tail
  /-- A name goes to the entry of that name. -/
  | child {name : Text} {entry : Entry} (notHere : name ≠ Path.here) (notAbove : name ≠ Path.above)
      (short : name.byteLength < nameLimit) (found : tree.find? (name :: location) = some entry) :
      Next tree location name (name :: location)

/-- **One step** starts in a directory. -/
theorem step_eq_ok_iff : tree.step location name = .ok reached ↔
    tree.find? location = some .directory ∧ tree.Next location name reached := by
  rw [step]
  constructor
  · intro stepped
    obtain ⟨_, required, stepped⟩ := Except.bind_eq_ok_iff.1 stepped
    refine ⟨requireDirectory_eq_ok_iff.1 required, ?_⟩
    split at stepped
    · next isHere =>
        cases stepped
        exact isHere ▸ .here
    · next notHere =>
        split at stepped
        · next isAbove =>
            cases stepped
            exact isAbove ▸ .above
        · next notAbove =>
            obtain ⟨occupant, looked, stepped⟩ := Except.bind_eq_ok_iff.1 stepped
            have ⟨short, found⟩ := child?_eq_ok_iff.1 looked
            cases occupant with
            | none => cases stepped
            | some entry =>
                cases stepped
                exact .child notHere notAbove short found
  · rintro ⟨found, next⟩
    refine Except.bind_eq_ok_iff.2 ⟨(), requireDirectory_eq_ok_iff.2 found, ?_⟩
    cases next with
    | here => exact if_pos rfl
    | above =>
        rw [if_neg (by decide), if_pos rfl]
        rfl
    | child notHere notAbove short there =>
        rw [if_neg notHere, if_neg notAbove]
        exact Except.bind_eq_ok_iff.2 ⟨_, child?_eq_ok_iff.2 ⟨short, there⟩, rfl⟩

/-- A walk goes on from where its first steps lead. -/
theorem walk_append (tree : Tree) (location : Location) (earlier later : List Text) :
    tree.walk location (earlier ++ later) =
      tree.walk location earlier >>= fun reached => tree.walk reached later := by
  induction earlier generalizing location with
  | nil => rfl
  | cons first earlier ih =>
      rw [List.cons_append, walk, walk]
      cases tree.step location first with
      | error fault => rfl
      | ok next => exact ih next

/-- A walk of one step. -/
theorem walk_singleton (tree : Tree) (location : Location) (name : Text) :
    tree.walk location [name] = tree.step location name := by
  rw [walk]
  cases tree.step location name with
  | error fault => rfl
  | ok reached => rfl

/-- A walk of one step more. -/
theorem walk_concat (tree : Tree) (location : Location) (earlier : List Text) (name : Text) :
    tree.walk location (earlier ++ [name]) =
      tree.walk location earlier >>= fun directory => tree.step directory name := by
  rw [walk_append]
  exact congrArg _ (funext fun reached => walk_singleton tree reached name)

/-- A walk of dots stays where it is. -/
theorem eq_of_walk_dots {dots : List Text} (still : ∀ dot ∈ dots, dot = Path.here)
    (walked : tree.walk location dots = .ok reached) : location = reached := by
  induction dots generalizing location with
  | nil => exact Except.ok.inj walked
  | cons dot dots ih =>
      rw [List.forall_mem_cons] at still
      obtain ⟨rfl, still⟩ := still
      obtain ⟨next, stepped, rest⟩ := Except.bind_eq_ok_iff.1 walked
      have stays := (step_eq_ok_iff.1 stepped).2
      generalize dot : Path.here = name at stays
      cases stays with
      | here => exact ih still rest
      | above => cases dot
      | child notHere => exact absurd dot.symm notHere

/-- A walk to a directory starts in one. -/
theorem find?_of_walk {names : List Text} (walked : tree.walk location names = .ok reached)
    (directory : tree.find? reached = some .directory) : tree.find? location = some .directory := by
  cases names with
  | nil =>
      obtain rfl := Except.ok.inj walked
      exact directory
  | cons name names =>
      obtain ⟨next, stepped, -⟩ := Except.bind_eq_ok_iff.1 walked
      exact (step_eq_ok_iff.1 stepped).1

/-! ## (2) Trees that keep directories -/

/-- **A tree that keeps the directories** of another one, and its working directory. -/
structure KeepsDirectories (before after : Tree) : Prop where
  /-- The working directory is the same. -/
  home : after.home = before.home
  /-- Every directory is still one. -/
  directories : ∀ location, before.find? location = some .directory →
    after.find? location = some .directory

/-- Directories are kept in sequence. -/
theorem KeepsDirectories.trans {middle : Tree} (first : KeepsDirectories before middle)
    (second : KeepsDirectories middle after) : KeepsDirectories before after :=
  ⟨second.home.trans first.home, fun location found =>
    second.directories location (first.directories location found)⟩

/-- Putting an entry at a location keeps the directories, if there was none there or the entry is one. -/
theorem KeepsDirectories.put {entry : Entry}
    (free : tree.find? location = some .directory → entry = .directory) :
    KeepsDirectories tree (tree.put location entry) := by
  refine ⟨rfl, fun other found => ?_⟩
  by_cases same : other = location
  · subst same
    rw [find?_put_self, free found]
  · rwa [find?_put_of_ne same]

/-- Erasing what is no directory keeps the directories. -/
theorem KeepsDirectories.erase (free : tree.find? location ≠ some .directory) :
    KeepsDirectories tree (tree.erase location) := by
  refine ⟨rfl, fun other found => ?_⟩
  have different : other ≠ location := by
    rintro rfl
    exact free found
  rwa [find?_erase_of_ne different]

/-- One step to a directory leads to the same directory where directories are kept. -/
theorem KeepsDirectories.next (keeps : KeepsDirectories before after)
    (next : before.Next location name reached) (directory : before.find? reached = some .directory) :
    after.Next location name reached := by
  cases next with
  | here => exact .here
  | above => exact .above
  | child notHere notAbove short _ =>
      exact .child notHere notAbove short (keeps.directories _ directory)

/-- **A walk to a directory** leads to the same directory where directories are kept. -/
theorem KeepsDirectories.walk (keeps : KeepsDirectories before after) {names : List Text}
    (walked : before.walk location names = .ok reached)
    (directory : before.find? reached = some .directory) :
    after.walk location names = .ok reached := by
  induction names generalizing location with
  | nil => exact walked
  | cons name names ih =>
      obtain ⟨next, stepped, rest⟩ := Except.bind_eq_ok_iff.1 walked
      obtain ⟨start, next⟩ := step_eq_ok_iff.1 stepped
      -- the walk goes on from there, so the step led to a directory
      have kept := keeps.next next (find?_of_walk rest directory)
      exact Except.bind_eq_ok_iff.2
        ⟨_, step_eq_ok_iff.2 ⟨keeps.directories _ start, kept⟩, ih rest⟩

/-! ## (3) Places -/

/-- **A path leads to a location** if it ends in a name that is not too long, in a directory.  There may be
an entry at the location or not. -/
def LeadsTo (tree : Tree) (path : Path) (location : Location) : Prop :=
  ∃ directory name, tree.place path = .ok (.named directory name) ∧ name.byteLength < nameLimit ∧
    location = name :: directory

/-- A path leads to one location at most. -/
theorem LeadsTo.unique {other : Location} (first : tree.LeadsTo path location)
    (second : tree.LeadsTo path other) : location = other := by
  obtain ⟨directory, name, placed, -, rfl⟩ := first
  obtain ⟨directory', name', placed', -, rfl⟩ := second
  cases placed.symm.trans placed'
  rfl

/-- The place that some steps lead to, of which the last one comes first. -/
theorem placeOf_eq_named_iff {start : Location} {earlier : List Text} {last : Text} :
    tree.placeOf start (last :: earlier.reverse) = .ok (.named directory name) ↔
      name ≠ Path.here ∧ name ≠ Path.above ∧ tree.find? directory = some .directory ∧
      ∃ before, earlier ++ [last] = before ++ [name] ∧ tree.walk start before = .ok directory := by
  rw [placeOf, Except.bind_eq_ok_iff]
  constructor
  · rintro ⟨reached, walked, rest⟩
    obtain ⟨_, required, rest⟩ := Except.bind_eq_ok_iff.1 rest
    rw [List.reverse_reverse] at walked
    split at rest
    · cases rest
    · next proper =>
        rw [not_or] at proper
        cases rest
        exact ⟨proper.1, proper.2, requireDirectory_eq_ok_iff.1 required, earlier, rfl, walked⟩
  · rintro ⟨notHere, notAbove, found, before, same, walked⟩
    obtain ⟨rfl, one⟩ := List.append_inj' same rfl
    obtain rfl := List.head_eq_of_cons_eq one
    refine ⟨directory, by rwa [List.reverse_reverse], Except.bind_eq_ok_iff.2
      ⟨(), requireDirectory_eq_ok_iff.2 found, ?_⟩⟩
    rw [if_neg (not_or.2 ⟨notHere, notAbove⟩)]
    rfl

/-- **The place of a path** is a name if its last step is one, and those in front of it lead to a
directory. -/
theorem place_eq_named_iff : tree.place path = .ok (.named directory name) ↔
    pathFault? path = none ∧ name ≠ Path.here ∧ name ≠ Path.above ∧
    tree.find? directory = some .directory ∧
    ∃ earlier, path.steps = earlier ++ [name] ∧
      tree.walk (tree.origin path) earlier = .ok directory := by
  rw [place]
  cases pathFault? path with
  | some fault =>
      constructor
      · intro placed
        cases placed
      · intro ⟨sound, _⟩
        cases sound
  | none =>
      refine Iff.trans ?_ (and_iff_right rfl).symm
      rcases List.eq_nil_or_concat path.steps with still | ⟨earlier, last, steps⟩
      · rw [still]
        constructor
        · intro placed
          cases placed
        · intro ⟨_, _, _, earlier, more, _⟩
          exact absurd more.symm (List.append_ne_nil_of_right_ne_nil earlier (List.cons_ne_nil _ _))
      · rw [List.concat_eq_append] at steps
        rw [steps, List.reverse_concat]
        exact placeOf_eq_named_iff

/-- A path has a place where all steps but the last one lead to a directory. -/
theorem place_of_concat {earlier : List Text} (sound : pathFault? path = none)
    (steps : path.steps = earlier ++ [name])
    (walked : tree.walk (tree.origin path) earlier = .ok directory)
    (found : tree.find? directory = some .directory) :
    tree.place path =
      .ok (if name = Path.here ∨ name = Path.above then .inside else .named directory name) := by
  rw [place, sound, steps, List.reverse_concat]
  dsimp only
  rw [placeOf, List.reverse_reverse, walked]
  refine Except.bind_eq_ok_iff.2 ⟨_, rfl, Except.bind_eq_ok_iff.2
    ⟨(), requireDirectory_eq_ok_iff.2 found, ?_⟩⟩
  split
  · rfl
  · rfl

/-- **Every path leads to the same location** where directories are kept. -/
theorem KeepsDirectories.leadsTo (keeps : KeepsDirectories before after)
    (leads : before.LeadsTo path location) : after.LeadsTo path location := by
  obtain ⟨directory, name, placed, short, rfl⟩ := leads
  obtain ⟨sound, notHere, notAbove, found, earlier, steps, walked⟩ := place_eq_named_iff.1 placed
  have same : after.origin path = before.origin path := by rw [origin, origin, keeps.home]
  refine ⟨directory, name, place_eq_named_iff.2 ⟨sound, notHere, notAbove, ?_, earlier, steps, ?_⟩,
    short, rfl⟩
  · exact keeps.directories _ found
  · rw [same]
    exact keeps.walk walked found

/-! ## (4) Operations -/

/-- **An operation on a name** succeeds with the entry, if there is one, at the location that its path
leads to. -/
theorem exists_place_iff (holds : Option Entry → Location → Prop) :
    (∃ directory name, tree.place path = .ok (.named directory name) ∧
      ∃ occupant, tree.child? directory name = .ok occupant ∧ holds occupant (name :: directory)) ↔
    ∃ location, tree.LeadsTo path location ∧ holds (tree.find? location) location := by
  constructor
  · rintro ⟨directory, name, placed, occupant, looked, rest⟩
    obtain ⟨short, rfl⟩ := child?_eq_ok_iff.1 looked
    exact ⟨_, ⟨directory, name, placed, short, rfl⟩, rest⟩
  · rintro ⟨_, ⟨directory, name, placed, short, rfl⟩, rest⟩
    exact ⟨directory, name, placed, _, child?_eq_ok_iff.2 ⟨short, rfl⟩, rest⟩

/-- **A directory is made** where a path leads to nothing. -/
theorem makeDirectory_eq_ok_iff : tree.makeDirectory path = .ok after ↔
    ∃ location, tree.LeadsTo path location ∧ tree.find? location = none ∧
      after = tree.put location .directory := by
  rw [← exists_place_iff fun occupant location =>
    occupant = none ∧ after = tree.put location .directory, makeDirectory, Except.bind_eq_ok_iff]
  constructor
  · rintro ⟨place, placed, rest⟩
    cases place with
    | inside => cases rest
    | named directory name =>
        obtain ⟨occupant, looked, rest⟩ := Except.bind_eq_ok_iff.1 rest
        cases occupant with
        | some entry => cases rest
        | none =>
            cases rest
            exact ⟨_, _, placed, _, looked, rfl, rfl⟩
  · rintro ⟨directory, name, placed, occupant, looked, rfl, rfl⟩
    exact ⟨_, placed, Except.bind_eq_ok_iff.2 ⟨_, looked, rfl⟩⟩

/-- **A file is written** where a path leads to no directory. -/
theorem write_eq_ok_iff {content : List UInt8} : tree.write path content = .ok after ↔
    ∃ location, tree.LeadsTo path location ∧ path.endsInSlash = false ∧
      tree.find? location ≠ some .directory ∧ after = tree.put location (.file content) := by
  rw [← exists_place_iff fun occupant location => path.endsInSlash = false ∧
    occupant ≠ some .directory ∧ after = tree.put location (.file content), write,
    Except.bind_eq_ok_iff]
  constructor
  · rintro ⟨place, placed, rest⟩
    cases place with
    | inside => cases rest
    | named directory name =>
        dsimp only at rest
        split at rest
        · cases rest
        · next ends =>
            obtain ⟨occupant, looked, rest⟩ := Except.bind_eq_ok_iff.1 rest
            refine ⟨_, _, placed, _, looked, Bool.eq_false_iff.2 ends, ?_⟩
            split at rest
            · cases rest
            · next noDirectory =>
                cases rest
                exact ⟨noDirectory, rfl⟩
  · rintro ⟨directory, name, placed, occupant, looked, ends, noDirectory, rfl⟩
    refine ⟨_, placed, ?_⟩
    dsimp only
    rw [if_neg (Bool.eq_false_iff.1 ends), Except.bind_eq_ok_iff]
    refine ⟨_, looked, ?_⟩
    split
    · exact absurd rfl noDirectory
    · rfl

/-- **A file is removed** where a path leads to one. -/
theorem remove_eq_ok_iff : tree.remove path = .ok after ↔
    ∃ location, tree.LeadsTo path location ∧ path.endsInSlash = false ∧
      (∃ content, tree.find? location = some (.file content)) ∧ after = tree.erase location := by
  rw [← exists_place_iff fun occupant location => path.endsInSlash = false ∧
    (∃ content, occupant = some (.file content)) ∧ after = tree.erase location, remove,
    Except.bind_eq_ok_iff]
  constructor
  · rintro ⟨place, placed, rest⟩
    cases place with
    | inside => cases rest
    | named directory name =>
        obtain ⟨occupant, looked, rest⟩ := Except.bind_eq_ok_iff.1 rest
        split at rest
        · cases rest
        · next content =>
            split at rest
            · cases rest
            · next ends =>
                cases rest
                exact ⟨_, _, placed, _, looked, Bool.eq_false_iff.2 ends, ⟨content, rfl⟩, rfl⟩
        · cases rest
  · rintro ⟨directory, name, placed, occupant, looked, ends, ⟨content, rfl⟩, rfl⟩
    refine ⟨_, placed, Except.bind_eq_ok_iff.2 ⟨_, looked, ?_⟩⟩
    dsimp only
    rw [if_neg (Bool.eq_false_iff.1 ends)]
    rfl

/-- **A file is renamed** to where a path leads to no directory. -/
theorem rename_eq_ok_iff {old new : Path} : tree.rename old new = .ok after ↔
    ∃ source, tree.LeadsTo old source ∧ ∃ target, tree.LeadsTo new target ∧
      ¬(old.endsInSlash ∨ new.endsInSlash) ∧ tree.find? target ≠ some .directory ∧
      ∃ content, tree.find? source = some (.file content) ∧
        after = (tree.erase source).put target (.file content) := by
  rw [rename, Except.bind_eq_ok_iff]
  constructor
  · rintro ⟨source, sourcePlaced, renamed⟩
    obtain ⟨target, targetPlaced, renamed⟩ := Except.bind_eq_ok_iff.1 renamed
    split at renamed
    · next sourceDirectory sourceName targetDirectory targetName =>
        obtain ⟨occupant, sourceLooked, renamed⟩ := Except.bind_eq_ok_iff.1 renamed
        obtain ⟨sourceShort, sourceFound⟩ := child?_eq_ok_iff.1 sourceLooked
        split at renamed
        · cases renamed
        · cases renamed
        · next content =>
            obtain ⟨there, targetLooked, renamed⟩ := Except.bind_eq_ok_iff.1 renamed
            obtain ⟨targetShort, rfl⟩ := child?_eq_ok_iff.1 targetLooked
            split at renamed
            · cases renamed
            · next ends =>
                split at renamed
                · cases renamed
                · next noDirectory =>
                    cases renamed
                    exact ⟨_, ⟨_, _, sourcePlaced, sourceShort, rfl⟩, _,
                      ⟨_, _, targetPlaced, targetShort, rfl⟩, ends, noDirectory, content,
                      sourceFound, rfl⟩
    · cases renamed
  · rintro ⟨_, ⟨_, _, sourcePlaced, sourceShort, rfl⟩, _, ⟨_, _, targetPlaced, targetShort, rfl⟩,
      ends, noDirectory, content, found, rfl⟩
    refine ⟨_, sourcePlaced, Except.bind_eq_ok_iff.2 ⟨_, targetPlaced, ?_⟩⟩
    refine Except.bind_eq_ok_iff.2 ⟨_, child?_eq_ok_iff.2 ⟨sourceShort, found⟩, ?_⟩
    refine Except.bind_eq_ok_iff.2 ⟨_, child?_eq_ok_iff.2 ⟨targetShort, rfl⟩, ?_⟩
    rw [if_neg ends, if_neg noDirectory]
    rfl

/-! ## (5) Opening -/

/-- A path leads where its steps do, and to a directory if it ends in a slash. -/
theorem locate_eq_ok_iff : tree.locate path = .ok reached ↔
    pathFault? path = none ∧ tree.walk (tree.origin path) path.steps = .ok reached ∧
      (path.endsInSlash = true → tree.find? reached = some .directory) := by
  rw [locate]
  cases pathFault? path with
  | some fault =>
      constructor
      · intro located
        cases located
      · intro ⟨sound, _⟩
        cases sound
  | none =>
      refine Iff.trans ?_ (and_iff_right rfl).symm
      dsimp only
      rw [Except.bind_eq_ok_iff]
      constructor
      · rintro ⟨location, walked, rest⟩
        split at rest
        · next slash =>
            obtain ⟨_, required, rest⟩ := Except.bind_eq_ok_iff.1 rest
            cases rest
            exact ⟨walked, fun _ => requireDirectory_eq_ok_iff.1 required⟩
        · next noSlash =>
            cases rest
            exact ⟨walked, fun slash => absurd slash noSlash⟩
      · rintro ⟨walked, directory⟩
        refine ⟨reached, walked, ?_⟩
        split
        · next slash =>
            exact Except.bind_eq_ok_iff.2 ⟨_, requireDirectory_eq_ok_iff.2 (directory slash), rfl⟩
        · rfl

/-- An entry is opened where it is located. -/
theorem openEntry_eq_ok_iff {entry : Entry} : tree.openEntry path = .ok entry ↔
    ∃ location, tree.locate path = .ok location ∧ tree.find? location = some entry := by
  rw [openEntry, Except.bind_eq_ok_iff]
  refine exists_congr fun location => and_congr_right fun _ => ?_
  cases tree.find? location with
  | none => simp [throw, throwThe, MonadExceptOf.throw]
  | some found => simp [pure, Except.pure]

/-- **An entry is located** where a path leads to it. -/
theorem locate_of_leadsTo {entry : Entry} (leads : tree.LeadsTo path location)
    (ends : path.endsInSlash = false) (there : tree.find? location = some entry) :
    tree.locate path = .ok location := by
  obtain ⟨directory, name, placed, short, rfl⟩ := leads
  obtain ⟨sound, notHere, notAbove, found, earlier, steps, walked⟩ := place_eq_named_iff.1 placed
  refine locate_eq_ok_iff.2 ⟨sound, ?_, fun slash => absurd slash (Bool.eq_false_iff.1 ends)⟩
  rw [steps, walk_concat, walked]
  exact step_eq_ok_iff.2 ⟨found, .child notHere notAbove short there⟩

/-- **What is opened** at the location that a path leads to. -/
theorem openEntry_of_leadsTo (leads : tree.LeadsTo path location)
    (ends : path.endsInSlash = false) :
    tree.openEntry path = (tree.find? location).elim (.error .notFound) .ok := by
  cases there : tree.find? location with
  | some entry => exact openEntry_eq_ok_iff.2 ⟨_, locate_of_leadsTo leads ends there, there⟩
  | none =>
      obtain ⟨directory, name, placed, short, rfl⟩ := leads
      obtain ⟨sound, notHere, notAbove, found, earlier, steps, walked⟩ := place_eq_named_iff.1 placed
      have missing : tree.step directory name = .error .notFound := by
        rw [step, requireDirectory_eq_ok_iff.2 found, if_neg notHere, if_neg notAbove,
          child?_eq_ok_iff.2 ⟨short, there⟩]
        rfl
      have start : tree.walk (tree.origin path) path.steps = tree.step directory name := by
        rw [steps, walk_concat, walked]
        rfl
      rw [openEntry, locate, sound]
      dsimp only
      rw [start, missing]
      rfl

/-- A walk leads to the same location where directories are kept and every entry stays one. -/
theorem KeepsDirectories.walk_of_entries (keeps : KeepsDirectories before after)
    (entries : ∀ location entry, before.find? location = some entry →
      ∃ still, after.find? location = some still) {names : List Text}
    (walked : before.walk location names = .ok reached) :
    after.walk location names = .ok reached := by
  induction names generalizing location with
  | nil => exact walked
  | cons name names ih =>
      obtain ⟨middle, stepped, rest⟩ := Except.bind_eq_ok_iff.1 walked
      obtain ⟨start, next⟩ := step_eq_ok_iff.1 stepped
      have kept : after.Next location name middle := by
        cases next with
        | here => exact .here
        | above => exact .above
        | child notHere notAbove short found =>
            obtain ⟨still, there⟩ := entries _ _ found
            exact .child notHere notAbove short there
      exact Except.bind_eq_ok_iff.2
        ⟨middle, step_eq_ok_iff.2 ⟨keeps.directories _ start, kept⟩, ih rest⟩

/-- **A path is located at the same location** where directories are kept and every entry stays one. -/
theorem KeepsDirectories.locate (keeps : KeepsDirectories before after)
    (entries : ∀ location entry, before.find? location = some entry →
      ∃ still, after.find? location = some still)
    (located : before.locate path = .ok location) : after.locate path = .ok location := by
  obtain ⟨sound, walked, slash⟩ := locate_eq_ok_iff.1 located
  have same : after.origin path = before.origin path := by rw [origin, origin, keeps.home]
  refine locate_eq_ok_iff.2 ⟨sound, ?_, fun ends => keeps.directories _ (slash ends)⟩
  rw [same]
  exact keeps.walk_of_entries entries walked

/-- A location where a file is put keeps every entry one. -/
theorem exists_find?_put (tree : Tree) (place : Location) (new : Entry) (location : Location)
    (entry : Entry) (found : tree.find? location = some entry) :
    ∃ still, (tree.put place new).find? location = some still := by
  by_cases same : location = place
  · subst same
    exact ⟨new, find?_put_self ..⟩
  · exact ⟨entry, (find?_put_of_ne same ..).trans found⟩

/-- **A file is read** where it is opened. -/
theorem read_eq_ok_iff {content : List UInt8} :
    tree.read path = .ok content ↔ tree.openEntry path = .ok (.file content) := by
  rw [read]
  split
  · next same => simp [same]
  · next same => simp [same]
  · next same => simp [same]

/-- **The way to a file**: all steps but the last one lead to a directory, from which the last one leads to
the file. -/
theorem read_eq_ok_iff_next {content : List UInt8} : tree.read path = .ok content ↔
    pathFault? path = none ∧ path.endsInSlash = false ∧
      ∃ earlier name, path.steps = earlier ++ [name] ∧
      ∃ directory, tree.walk (tree.origin path) earlier = .ok directory ∧
        tree.find? directory = some .directory ∧
      ∃ location, tree.Next directory name location ∧
        tree.find? location = some (.file content) := by
  rw [read_eq_ok_iff, openEntry_eq_ok_iff]
  constructor
  · rintro ⟨location, located, found⟩
    obtain ⟨sound, walked, slash⟩ := locate_eq_ok_iff.1 located
    have ends : path.endsInSlash = false := by
      refine Bool.eq_false_iff.2 fun ends => ?_
      cases found.symm.trans (slash ends)
    refine ⟨sound, ends, ?_⟩
    rcases List.eq_nil_or_concat path.steps with still | ⟨earlier, name, steps⟩
    · -- a path without a step ends in a slash
      have full : path.text ≠ [] := by
        intro empty
        rw [pathFault?, empty] at sound
        cases sound
      exact absurd (Path.endsInSlash_of_steps still full) (Bool.eq_false_iff.1 ends)
    · rw [List.concat_eq_append] at steps
      rw [steps, walk_concat] at walked
      obtain ⟨directory, walked, stepped⟩ := Except.bind_eq_ok_iff.1 walked
      have ⟨start, next⟩ := step_eq_ok_iff.1 stepped
      exact ⟨earlier, name, steps, directory, walked, start, location, next, found⟩
  · rintro ⟨sound, ends, earlier, name, steps, directory, walked, start, location, next, found⟩
    refine ⟨location, locate_eq_ok_iff.2 ⟨sound, ?_, fun slash => ?_⟩, found⟩
    · rw [steps, walk_concat, walked]
      exact step_eq_ok_iff.2 ⟨start, next⟩
    · exact absurd slash (Bool.eq_false_iff.1 ends)

/-! ## (6) Paths that meet -/

variable {first second other : Path} {content old : List UInt8}

/-- **Two paths meet** at an entry that both lead to. -/
def Meet (tree : Tree) (first second : Path) : Prop :=
  ∃ location, tree.locate first = .ok location ∧ tree.locate second = .ok location

/-- A file is read where its path is located. -/
theorem read_eq_ok_iff_locate : tree.read path = .ok content ↔
    ∃ location, tree.locate path = .ok location ∧ tree.find? location = some (.file content) := by
  rw [read_eq_ok_iff, openEntry_eq_ok_iff]

/-- The same file is read at two paths that meet. -/
theorem Meet.read (meet : tree.Meet first second) (read : tree.read second = .ok content) :
    tree.read first = .ok content := by
  obtain ⟨location, toFirst, toSecond⟩ := meet
  obtain ⟨location', located, found⟩ := read_eq_ok_iff_locate.1 read
  obtain rfl := Except.ok.inj (toSecond.symm.trans located)
  exact read_eq_ok_iff_locate.2 ⟨location, toFirst, found⟩

/-- **What is written** is located where the path leads to, and is read there. -/
theorem exists_locate_of_write (written : before.write path content = .ok after) :
    ∃ location, after = before.put location (.file content) ∧
      KeepsDirectories before after ∧ after.locate path = .ok location := by
  obtain ⟨location, leads, ends, noDirectory, rfl⟩ := write_eq_ok_iff.1 written
  have keeps : KeepsDirectories before (before.put location (.file content)) :=
    .put fun directory => absurd directory noDirectory
  exact ⟨location, rfl, keeps,
    locate_of_leadsTo (keeps.leadsTo leads) ends (find?_put_self before location _)⟩

/-- A file that is written is read again. -/
theorem read_of_write (written : before.write path content = .ok after) :
    after.read path = .ok content := by
  obtain ⟨location, rfl, -, located⟩ := exists_locate_of_write written
  exact read_eq_ok_iff_locate.2 ⟨location, located, find?_put_self ..⟩

/-- **Writing a file** leaves what is read at a path that does not meet it. -/
theorem read_of_write_of_not_meet (written : before.write path content = .ok after)
    (apart : ¬ after.Meet other path) (read : before.read other = .ok old) :
    after.read other = .ok old := by
  obtain ⟨place, rfl, keeps, toPlace⟩ := exists_locate_of_write written
  obtain ⟨location, located, found⟩ := read_eq_ok_iff_locate.1 read
  have still := keeps.locate (exists_find?_put before place (.file content)) located
  have different : location ≠ place := by
    rintro rfl
    exact apart ⟨location, still, toPlace⟩
  exact read_eq_ok_iff_locate.2 ⟨location, still, (find?_put_of_ne different ..).trans found⟩

end Lexer.Files.Tree
