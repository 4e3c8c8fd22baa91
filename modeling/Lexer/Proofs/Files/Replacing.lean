import Lexer.Proofs.Files.Disturbance
import Lexer.Proofs.Files.Enclosing

/-! # Replacing files

A file is replaced through its temporary sibling, so a tree passes through three stages.  Directories are made
on the way to the path, then there is a temporary file with some of the content, and at last that file is
renamed.  **Every stage changes what it has to and nothing else**, and from each of them removing the temporary
file leads back to the files that were there. -/

namespace Lexer.Files

open Disturbed (outcome)

variable {tree before middle after : Tree} {path : Path} {paths : List Path} {location : Location}
  {content : List UInt8} {ε α β : Type}

namespace Tree

/-! ## (1) Directories on the way -/

/-- **A location is kept** if its entry is the same, or if a directory was made there that one of some paths
leads to. -/
def KeptAt (paths : List Path) (before after : Tree) (location : Location) : Prop :=
  after.find? location = before.find? location ∨
    before.find? location = none ∧ after.find? location = some .directory ∧
      ∃ path ∈ paths, after.LeadsTo path location

/-- **A tree that has grown** by directories that some paths lead to. -/
structure Grown (paths : List Path) (before after : Tree) : Prop where
  /-- The working directory is the same. -/
  home : after.home = before.home
  /-- Every location is kept. -/
  kept : ∀ location, KeptAt paths before after location

/-- A location that is kept has a file if it had that file. -/
theorem KeptAt.find?_file (kept : KeptAt paths before after location) :
    after.find? location = some (.file content) ↔ before.find? location = some (.file content) := by
  rcases kept with same | ⟨nothing, directory, -⟩
  · rw [same]
  · rw [nothing, directory]
    simp

/-- A directory is kept as one. -/
theorem KeptAt.find?_directory (kept : KeptAt paths before after location)
    (found : before.find? location = some .directory) :
    after.find? location = some .directory := by
  rcases kept with same | ⟨-, directory, -⟩
  · rwa [same]
  · exact directory

/-- What a change keeps and another one leaves as it is was kept. -/
theorem KeptAt.of_find?_eq (kept : KeptAt paths before middle location)
    (keeps : KeepsDirectories middle after) (same : after.find? location = middle.find? location) :
    KeptAt paths before after location := by
  rcases kept with still | ⟨nothing, directory, path, member, leads⟩
  · exact .inl (same.trans still)
  · exact .inr ⟨nothing, same.trans directory, path, member, keeps.leadsTo leads⟩

/-- A tree that has grown keeps the directories. -/
theorem Grown.keeps (grown : Grown paths before after) : KeepsDirectories before after :=
  ⟨grown.home, fun location found => (grown.kept location).find?_directory found⟩

/-- A tree that stays as it is has grown by nothing. -/
theorem Grown.refl (paths : List Path) (tree : Tree) : Grown paths tree tree :=
  ⟨rfl, fun _ => .inl rfl⟩

/-- A tree grows in sequence. -/
theorem Grown.trans (first : Grown paths before middle) (second : Grown paths middle after) :
    Grown paths before after := by
  refine ⟨second.home.trans first.home, fun location => ?_⟩
  rcases second.kept location with same | ⟨nothing, directory, leads⟩
  · exact (first.kept location).of_find?_eq second.keeps same
  · rcases first.kept location with still | ⟨-, there, -⟩
    · exact .inr ⟨still.symm.trans nothing, directory, leads⟩
    · rw [there] at nothing
      cases nothing

/-- A tree grows by a directory that is made. -/
theorem Grown.of_makeDirectory (member : path ∈ paths) (made : before.makeDirectory path = .ok after) :
    Grown paths before after := by
  obtain ⟨location, leads, nothing, rfl⟩ := makeDirectory_eq_ok_iff.1 made
  have keeps : KeepsDirectories before (before.put location .directory) := .put fun _ => rfl
  refine ⟨rfl, fun other => ?_⟩
  by_cases same : other = location
  · subst same
    exact .inr ⟨nothing, find?_put_self .., path, member, keeps.leadsTo leads⟩
  · exact .inl (find?_put_of_ne same ..)

end Tree

open Lexer.Files.Tree (Grown KeptAt KeepsDirectories)

/-! ## (2) Making directories -/

/-- **A program grows** a tree by directories that some paths lead to, however it ends. -/
def Grows (paths : List Path) (program : ExceptT ε Disturbed α) : Prop :=
  ∀ disturbance before, Grown paths before (outcome program disturbance before).2

/-- Programs grow a tree in sequence. -/
theorem Grows.bind {program : ExceptT ε Disturbed α} {next : α → ExceptT ε Disturbed β}
    (first : Grows paths program) (second : ∀ value, Grows paths (next value)) :
    Grows paths (program >>= next) := by
  intro disturbance before
  have grown := first disturbance before
  rw [Disturbed.outcome_bind]
  generalize outcome program disturbance before = result at grown
  rcases result with ⟨fault | value, middle⟩
  · exact grown
  · exact grown.trans (second value disturbance middle)

/-- Programs grow a tree where their faults are handled. -/
theorem Grows.tryCatch {program : ExceptT ε Disturbed α} {handler : ε → ExceptT ε Disturbed α}
    (first : Grows paths program) (second : ∀ fault, Grows paths (handler fault)) :
    Grows paths (tryCatch program handler) := by
  intro disturbance before
  have grown := first disturbance before
  rw [Disturbed.outcome_tryCatch]
  generalize outcome program disturbance before = result at grown
  rcases result with ⟨fault | value, middle⟩
  · exact grown.trans (second fault disturbance middle)
  · exact grown

/-- Making a directory grows a tree by it. -/
theorem grows_makeDirectory (member : path ∈ paths) : Grows paths (Store.makeDirectory path) := by
  intro disturbance before
  have attempt := Disturbed.attempt_makeDirectory disturbance before path
  generalize outcome (Store.makeDirectory path) disturbance before = result at attempt
  cases attempt with
  | done made => exact .of_makeDirectory member made
  | refused fault => exact .refl paths before

/-- Looking for a directory leaves a tree as it is. -/
theorem grows_isDirectory (paths : List Path) (path : Path) (fault : Fault) :
    Grows paths (do
      if ← (Store.isDirectory path : Disturbed Bool) then return () else throw fault :
        ExceptT Fault Disturbed Unit) := by
  refine Grows.bind (fun _ tree => .refl paths tree) fun isDirectory => ?_
  cases isDirectory with
  | false => exact fun _ tree => .refl paths tree
  | true => exact fun _ tree => .refl paths tree

/-- Making sure of a directory grows a tree by it. -/
theorem grows_ensureDirectory (member : path ∈ paths) : Grows paths (Store.ensureDirectory path) :=
  (grows_makeDirectory member).tryCatch (grows_isDirectory paths path)

/-- **Making directories** grows a tree by some of them. -/
theorem grows_makeDirectories {list : List Path} (members : ∀ path ∈ list, path ∈ paths) :
    Grows paths (Store.makeDirectories list) := by
  induction list with
  | nil => exact fun _ tree => .refl paths tree
  | cons path enclosing ih =>
      rw [List.forall_mem_cons] at members
      refine (grows_makeDirectory members.1).tryCatch fun fault => ?_
      split
      · exact (ih members.2).bind fun _ => grows_ensureDirectory members.1
      · exact grows_isDirectory paths path fault

/-! ## (3) The path and its temporary sibling -/

/-- **A path and its temporary sibling** never lead to the same location, not even in different trees. -/
theorem Tree.LeadsTo.not_temporary {other : Tree} (leads : tree.LeadsTo path location) :
    ¬ other.LeadsTo path.temporary location := by
  obtain ⟨directory, name, placed, -, rfl⟩ := leads
  rintro ⟨directory', name', placed', -, same⟩
  obtain ⟨-, notHere, notAbove, -, earlier, steps, -⟩ := Tree.place_eq_named_iff.1 placed
  obtain ⟨-, -, -, -, earlier', steps', -⟩ := Tree.place_eq_named_iff.1 placed'
  have named : path.name? = some name := by
    rw [Path.name?_of_steps notHere steps, if_neg notAbove]
  rw [Path.steps_temporary_of_name named] at steps'
  obtain ⟨-, last⟩ := List.append_inj' steps' rfl
  have longer : name ++ Path.temporaryEnding = name :=
    (List.head_eq_of_cons_eq last).trans (List.head_eq_of_cons_eq same).symm
  exact absurd (List.append_right_eq_self.1 longer) (by decide)

/-- The temporary sibling of a path that ends in two dots is one step behind the directory there. -/
theorem not_leadsTo_temporary_of_above {earlier : List Text} {directory : Location}
    (steps : path.steps = earlier ++ [Path.above])
    (walked : tree.walk (tree.origin path) earlier = .ok directory)
    (start : tree.find? directory = some .directory) :
    ¬ tree.LeadsTo path.temporary directory.tail := by
  rintro ⟨directory', name', placed', -, same⟩
  obtain ⟨-, -, -, -, earlier', steps', walked'⟩ := Tree.place_eq_named_iff.1 placed'
  have unnamed : path.name? = none := by
    rw [Path.name?_of_steps (by decide) steps, if_pos rfl]
  have moves : path.steps ≠ [] := by
    rw [steps]
    exact List.append_ne_nil_of_right_ne_nil _ (List.cons_ne_nil _ _)
  rw [Path.steps_temporary_of_none unnamed] at steps'
  obtain ⟨rfl, -⟩ := List.append_inj' steps' rfl
  rw [Tree.origin, Path.isAbsolute_temporary_of_none unnamed moves, ← Tree.origin, steps,
    Tree.walk_concat, walked] at walked'
  have up : tree.step directory Path.above = .ok directory.tail :=
    Tree.step_eq_ok_iff.2 ⟨start, .above⟩
  obtain rfl : directory.tail = directory' := Except.ok.inj (up.symm.trans walked')
  exact List.cons_ne_self _ _ same.symm

/-- **A file at the path** is still read there, where directories are kept and so are all files but one
at the temporary sibling. -/
theorem read_of_keeps (keeps : KeepsDirectories before after)
    (files : ∀ location, ¬ after.LeadsTo path.temporary location →
      ∀ content, before.find? location = some (.file content) →
        after.find? location = some (.file content))
    (read : before.read path = .ok content) : after.read path = .ok content := by
  obtain ⟨sound, ends, earlier, name, steps, directory, walked, start, location, next, found⟩ :=
    Tree.read_eq_ok_iff_next.1 read
  have origin : after.origin path = before.origin path := by
    rw [Tree.origin, Tree.origin, keeps.home]
  have walked' : after.walk (after.origin path) earlier = .ok directory := by
    rw [origin]
    exact keeps.walk walked start
  have start' := keeps.directories _ start
  -- it is left to show that the last step leads to the same file
  suffices same : after.find? location = some (.file content) by
    refine Tree.read_eq_ok_iff_next.2
      ⟨sound, ends, earlier, name, steps, directory, walked', start', location, ?_, same⟩
    cases next with
    | here => exact .here
    | above => exact .above
    | child notHere notAbove short _ => exact .child notHere notAbove short same
  refine files location ?_ content found
  cases next with
  | here =>
      rw [start] at found
      cases found
  | above => exact not_leadsTo_temporary_of_above steps walked' start'
  | child notHere notAbove short _ =>
      have leads : before.LeadsTo path (name :: directory) :=
        ⟨directory, name, Tree.place_eq_named_iff.2
          ⟨sound, notHere, notAbove, start, earlier, steps, walked⟩, short, rfl⟩
      exact leads.not_temporary

/-! ## (4) Replacing -/

/-- **An unfinished tree**: everything is kept, but there may be a file at the temporary sibling. -/
structure Unfinished (path : Path) (before middle : Tree) : Prop where
  /-- The directories are kept. -/
  keeps : KeepsDirectories before middle
  /-- Every location is kept, except that one may hold a temporary file. -/
  kept : ∀ location, KeptAt path.enclosing before middle location ∨
    middle.LeadsTo path.temporary location ∧ ∃ part, middle.find? location = some (.file part)

/-- **A replaced file**: it has the new content, and there is no temporary file. -/
structure Replaced (path : Path) (content : List UInt8) (before after : Tree) : Prop where
  /-- The directories are kept. -/
  keeps : KeepsDirectories before after
  /-- The file has the new content. -/
  content : after.read path = .ok content
  /-- There is nothing at the temporary sibling. -/
  temporary : after.openEntry path.temporary = .error .notFound
  /-- All locations but those of the path and its temporary sibling are kept. -/
  kept : ∀ location, ¬ after.LeadsTo path location → ¬ after.LeadsTo path.temporary location →
    KeptAt path.enclosing before after location

/-- **A spared file**: no file has changed, and there is no temporary file. -/
structure Spared (path : Path) (before after : Tree) : Prop where
  /-- The directories are kept. -/
  keeps : KeepsDirectories before after
  /-- Every location is kept, except that nothing may be left at the temporary sibling. -/
  kept : ∀ location, KeptAt path.enclosing before after location ∨
    after.LeadsTo path.temporary location ∧ after.find? location = none
  /-- Every file that is not at the temporary sibling has the content that it had. -/
  others : ∀ location, ¬ after.LeadsTo path.temporary location →
    ∀ content, before.find? location = some (.file content) →
      after.find? location = some (.file content)
  /-- No file is at the temporary sibling. -/
  temporary : ∀ content, after.read path.temporary ≠ .ok content
  /-- The file at the path has the content that it had. -/
  content : ∀ content, before.read path = .ok content → after.read path = .ok content
  /-- There is no file that was not there before. -/
  files : ∀ location content, after.find? location = some (.file content) →
    before.find? location = some (.file content)

/-- **All or nothing**: a file is replaced, or there is a fault and it is spared. -/
inductive AllOrNothing (path : Path) (content : List UInt8) (before : Tree) :
    Except ε Unit × Tree → Prop where
  /-- The file is replaced. -/
  | replaced {after : Tree} (replaced : Replaced path content before after) :
      AllOrNothing path content before (.ok (), after)
  /-- There is a fault, and the file is spared. -/
  | spared {after : Tree} (fault : ε) (spared : Spared path before after) :
      AllOrNothing path content before (.error fault, after)

/-- What succeeds has replaced the file. -/
theorem AllOrNothing.of_ok {outcome : Except ε Unit × Tree}
    (all : AllOrNothing path content before outcome) (succeeds : outcome.1 = .ok ()) :
    Replaced path content before outcome.2 := by
  cases all with
  | replaced replaced => exact replaced
  | spared fault _ => cases succeeds

/-- What fails has spared the file. -/
theorem AllOrNothing.of_error {outcome : Except ε Unit × Tree} {fault : ε}
    (all : AllOrNothing path content before outcome) (fails : outcome.1 = .error fault) :
    Spared path before outcome.2 := by
  cases all with
  | replaced _ => cases fails
  | spared _ spared => exact spared

/-- Whatever a fault is turned into, a file is replaced or spared. -/
theorem AllOrNothing.mapError {ε' : Type} {outcome : Except ε Unit × Tree}
    (all : AllOrNothing path content before outcome) (report : ε → ε') :
    AllOrNothing path content before (outcome.1.mapError report, outcome.2) := by
  cases all with
  | replaced replaced => exact .replaced replaced
  | spared fault spared => exact .spared (report fault) spared

/-- A tree in which a file is read at the temporary sibling leads to it. -/
theorem exists_leadsTo_of_read_temporary (read : tree.read path.temporary = .ok content) :
    ∃ location, tree.LeadsTo path.temporary location ∧
      tree.find? location = some (.file content) := by
  obtain ⟨sound, -, earlier, name, steps, directory, walked, start, location, next, found⟩ :=
    Tree.read_eq_ok_iff_next.1 read
  obtain ⟨earlier', name', steps', notHere, notAbove⟩ := path.exists_steps_temporary
  obtain ⟨rfl, last⟩ := List.append_inj' (steps'.symm.trans steps) rfl
  obtain rfl := List.head_eq_of_cons_eq last
  cases next with
  | here => exact absurd rfl notHere
  | above => exact absurd rfl notAbove
  | child _ _ short _ =>
      exact ⟨_, ⟨directory, name', Tree.place_eq_named_iff.2
        ⟨sound, notHere, notAbove, start, earlier', steps, walked⟩, short, rfl⟩, found⟩

/-- A tree with nothing but directories made is unfinished. -/
theorem Unfinished.of_grown (grown : Grown path.enclosing before middle) :
    Unfinished path before middle :=
  ⟨grown.keeps, fun location => .inl (grown.kept location)⟩

/-- **A tree with a temporary file** is unfinished. -/
theorem Unfinished.of_write (grown : Grown path.enclosing before middle)
    (written : middle.write path.temporary content = .ok after) : Unfinished path before after := by
  obtain ⟨location, leads, -, noDirectory, rfl⟩ := Tree.write_eq_ok_iff.1 written
  have keeps : KeepsDirectories middle (middle.put location (.file content)) :=
    .put fun directory => absurd directory noDirectory
  refine ⟨grown.keeps.trans keeps, fun other => ?_⟩
  by_cases same : other = location
  · subst same
    exact .inr ⟨keeps.leadsTo leads, content, Tree.find?_put_self ..⟩
  · exact .inl ((grown.kept other).of_find?_eq keeps (Tree.find?_put_of_ne same ..))

/-- A file is spared if everything is kept but what was at the temporary sibling, and no file is there. -/
theorem Spared.of_kept (keeps : KeepsDirectories before after)
    (kept : ∀ location, KeptAt path.enclosing before after location ∨
      after.LeadsTo path.temporary location ∧ after.find? location = none)
    (gone : ∀ location, after.LeadsTo path.temporary location →
      ∀ content, after.find? location ≠ some (.file content)) : Spared path before after := by
  have others : ∀ location, ¬ after.LeadsTo path.temporary location →
      ∀ content, before.find? location = some (.file content) →
        after.find? location = some (.file content) := by
    intro location apart content found
    rcases kept location with still | ⟨leads, -⟩
    · exact still.find?_file.2 found
    · exact absurd leads apart
  refine ⟨keeps, kept, others, ?_, fun content => read_of_keeps keeps others, ?_⟩
  · intro content read
    obtain ⟨location, leads, found⟩ := exists_leadsTo_of_read_temporary read
    exact gone location leads content found
  · intro location content found
    rcases kept location with still | ⟨-, nothing⟩
    · exact still.find?_file.1 found
    · rw [nothing] at found
      cases found

/-- **Removing the temporary file** of an unfinished tree spares the file at the path. -/
theorem Unfinished.spared (unfinished : Unfinished path before middle) :
    Spared path before ((middle.remove path.temporary).toOption.getD middle) := by
  cases removed : middle.remove path.temporary with
  | error fault =>
      -- a temporary file would have been removed
      have gone : ∀ location, middle.LeadsTo path.temporary location →
          ∀ content, middle.find? location ≠ some (.file content) := by
        intro location leads content found
        have done := Tree.remove_eq_ok_iff.2
          ⟨location, leads, path.endsInSlash_temporary, ⟨content, found⟩, rfl⟩
        cases removed.symm.trans done
      refine .of_kept unfinished.keeps (fun location => ?_) gone
      rcases unfinished.kept location with still | ⟨leads, part, found⟩
      · exact .inl still
      · exact absurd found (gone location leads part)
  | ok after =>
      obtain ⟨erased, leads, -, ⟨part, found⟩, rfl⟩ := Tree.remove_eq_ok_iff.1 removed
      have keeps : KeepsDirectories middle (middle.erase erased) := by
        refine .erase fun directory => ?_
        cases found.symm.trans directory
      refine .of_kept (unfinished.keeps.trans keeps) (fun location => ?_) fun location leads' => ?_
      · by_cases same : location = erased
        · subst same
          exact .inr ⟨keeps.leadsTo leads, Tree.find?_erase_self ..⟩
        · have other := Tree.find?_erase_of_ne same middle
          rcases unfinished.kept location with still | ⟨leads', -⟩
          · exact .inl (still.of_find?_eq keeps other)
          · exact absurd (leads'.unique leads) same
      · obtain rfl := leads'.unique (keeps.leadsTo leads)
        intro content file
        cases (Tree.find?_erase_self ..).symm.trans file

/-- **Renaming the temporary file** replaces the file at the path. -/
theorem Replaced.of_rename (grown : Grown path.enclosing before middle)
    {made : Tree} (written : middle.write path.temporary content = .ok made)
    (renamed : made.rename path.temporary path = .ok after) :
    Replaced path content before after := by
  obtain ⟨source, leads, -, noDirectory, rfl⟩ := Tree.write_eq_ok_iff.1 written
  obtain ⟨source', leads', target, toTarget, ends, noDirectory', content', found, rfl⟩ :=
    Tree.rename_eq_ok_iff.1 renamed
  have writes : KeepsDirectories middle (middle.put source (.file content)) :=
    .put fun directory => absurd directory noDirectory
  -- what is renamed is what was written, and it is renamed to another location
  obtain rfl := leads'.unique (writes.leadsTo leads)
  obtain rfl : content = content' := by
    cases (Tree.find?_put_self ..).symm.trans found
    rfl
  have apart : target ≠ source' := by
    rintro rfl
    exact toTarget.not_temporary leads'
  have erases : KeepsDirectories (middle.put source' (.file content))
      ((middle.put source' (.file content)).erase source') := by
    refine .erase fun directory => ?_
    cases found.symm.trans directory
  have puts : KeepsDirectories ((middle.put source' (.file content)).erase source')
      (((middle.put source' (.file content)).erase source').put target (.file content)) := by
    refine .put fun directory => ?_
    rw [Tree.find?_erase_of_ne apart] at directory
    exact absurd directory noDirectory'
  have moves := erases.trans puts
  refine ⟨grown.keeps.trans (writes.trans moves), ?_, ?_, ?_⟩
  · rw [not_or, Bool.not_eq_true] at ends
    rw [Tree.read_eq_ok_iff, Tree.openEntry_of_leadsTo (moves.leadsTo toTarget)
      (Bool.eq_false_iff.2 ends.2), Tree.find?_put_self]
    rfl
  · rw [Tree.openEntry_of_leadsTo (moves.leadsTo leads') path.endsInSlash_temporary,
      Tree.find?_put_of_ne apart.symm, Tree.find?_erase_self]
    rfl
  · intro location notTarget notSource
    have fromTarget : location ≠ target := by
      rintro rfl
      exact notTarget (moves.leadsTo toTarget)
    have fromSource : location ≠ source' := by
      rintro rfl
      exact notSource (moves.leadsTo leads')
    refine (grown.kept location).of_find?_eq (writes.trans moves) ?_
    rw [Tree.find?_put_of_ne fromTarget, Tree.find?_erase_of_ne fromSource,
      Tree.find?_put_of_ne fromSource]

/-- **The outcomes of replacing through** a temporary sibling: the file is replaced, or the tree is
unfinished. -/
inductive Through (path : Path) (content : List UInt8) (before : Tree) :
    Except Fault Unit × Tree → Prop where
  /-- The file is replaced. -/
  | replaced {after : Tree} (replaced : Replaced path content before after) :
      Through path content before (.ok (), after)
  /-- There is a fault, and the tree is unfinished. -/
  | unfinished {middle : Tree} (fault : Fault) (unfinished : Unfinished path before middle) :
      Through path content before (.error fault, middle)

/-- Wherever replacing stops, it stops in one of the stages. -/
theorem through_replaceThrough (disturbance : Disturbance) (before : Tree) (path : Path)
    (content : List UInt8) :
    Through path content before (outcome (Store.replaceThrough path content) disturbance before) := by
  have grown := @grows_makeDirectories path.enclosing path.enclosing (fun _ member => member)
    disturbance before
  rw [Store.replaceThrough, Disturbed.outcome_bind]
  generalize outcome (Store.makeDirectories path.enclosing) disturbance before = result at grown
  rcases result with ⟨fault | _, middle⟩
  · exact .unfinished fault (.of_grown grown)
  · dsimp only
    have written := Disturbed.written_overwrite disturbance middle path.temporary content
    rw [Disturbed.outcome_bind, Store.write, Disturbed.outcome_adapt]
    generalize outcome (Store.overwrite path.temporary content) disturbance middle = result at written
    cases written with
    | refused fault => exact .unfinished fault (.of_grown grown)
    | broken part fault _ changed => exact .unfinished fault (.of_write grown changed)
    | @complete made changed =>
        dsimp only [Except.mapError]
        have renamed := Disturbed.attempt_rename disturbance made path.temporary path
        generalize outcome (Store.rename path.temporary path) disturbance made = result at renamed
        cases renamed with
        | done moved => exact .replaced (.of_rename grown changed moved)
        | refused fault => exact .unfinished fault (.of_write grown changed)

/-- **Replacing a file is all or nothing**, under every disturbance. -/
theorem allOrNothing_replace (disturbance : Disturbance) (before : Tree) (path : Path)
    (content : List UInt8) : AllOrNothing path content before
      (outcome (Store.replace path content) disturbance before) := by
  have through := through_replaceThrough disturbance before path content
  rw [Store.replace, Disturbed.outcome_tryCatch]
  generalize outcome (Store.replaceThrough path content) disturbance before = result at through
  cases through with
  | replaced replaced => exact .replaced replaced
  | @unfinished middle fault unfinished =>
      -- the first fault is reported, whatever comes of removing the temporary file
      have spared := unfinished.spared
      dsimp only
      rw [Disturbed.outcome_bind, Disturbed.outcome_tryCatch, Disturbed.outcome_remove]
      generalize middle.remove path.temporary = removed at spared
      cases removed with
      | ok after => exact .spared fault spared
      | error other => exact .spared fault spared

/-! ## (5) Unchanged files -/

/-- **The file at a path is as it was**, or there is still none.  Directories that are made on the way may let
the path lead to a place for the first time, so the place is compared as well. -/
structure Unchanged (path : Path) (before after : Tree) : Prop where
  /-- What was read at the path is read again. -/
  content : ∀ content, before.read path = .ok content → after.read path = .ok content
  /-- Where the path led already, nothing is read that was not read before. -/
  absence : ∀ location, before.LeadsTo path location →
    ∀ content, after.read path = .ok content → before.read path = .ok content
  /-- Where the path leads now, there is the file that was there, or no file as before. -/
  place : ∀ location, after.LeadsTo path location → ∀ content,
    after.find? location = some (.file content) ↔ before.find? location = some (.file content)

/-- **A file that is spared** is unchanged. -/
theorem Spared.unchanged (spared : Spared path before after) : Unchanged path before after where
  content := spared.content
  absence := by
    intro location leads content read
    obtain ⟨-, ends, -⟩ := Tree.read_eq_ok_iff_next.1 read
    rw [Tree.read_eq_ok_iff, Tree.openEntry_of_leadsTo (spared.keeps.leadsTo leads) ends] at read
    rw [Tree.read_eq_ok_iff, Tree.openEntry_of_leadsTo leads ends]
    cases found : after.find? location with
    | none =>
        rw [found] at read
        cases read
    | some entry =>
        rw [found] at read
        obtain rfl := Except.ok.inj read
        rw [spared.files location content found]
        rfl
  place := by
    intro location leads content
    exact ⟨spared.files location content, spared.others location leads.not_temporary content⟩

/-! ## (6) Ready paths -/

/-- **A path is ready** for a file if it and its temporary sibling lead to locations that are no directories. -/
structure Tree.Ready (tree : Tree) (path : Path) : Prop where
  /-- The path does not ask for a directory. -/
  ends : path.endsInSlash = false
  /-- It leads to where a file is or can be made. -/
  target : ∃ location, tree.LeadsTo path location ∧ tree.find? location ≠ some .directory
  /-- And so does its temporary sibling. -/
  temporary : ∃ location, tree.LeadsTo path.temporary location ∧
    tree.find? location ≠ some .directory

/-- No directory is made on the way to a path that leads to a location. -/
theorem outcome_makeDirectories_enclosing (leads : tree.LeadsTo path location) :
    outcome (Store.makeDirectories path.enclosing) .calm tree = (.ok (), tree) := by
  cases encloses : path.enclosing with
  | nil => rfl
  | cons parent rest =>
      have there := leads.isDirectory_enclosing encloses
      have refused : outcome (Store.makeDirectory parent) .calm tree = (.error .alreadyThere, tree) :=
        Disturbed.run_change_of_error (Tree.makeDirectory_of_isDirectory there)
      have looked : outcome (liftM (Store.isDirectory parent : Disturbed Bool) :
          ExceptT Fault Disturbed Bool) .calm tree = (.ok true, tree) := by
        rw [← there]
        rfl
      rw [Store.makeDirectories, Disturbed.outcome_tryCatch, refused]
      dsimp only
      rw [if_neg (by decide), Disturbed.outcome_bind, looked]
      rfl

/-- A temporary file of a path that is ready can be written and renamed. -/
theorem Tree.Ready.exists_rename (ready : tree.Ready path) (content : List UInt8) :
    ∃ made after, tree.write path.temporary content = .ok made ∧
      made.rename path.temporary path = .ok after := by
  obtain ⟨target, leads, free⟩ := ready.target
  obtain ⟨source, toSource, freeSource⟩ := ready.temporary
  have apart : target ≠ source := by
    rintro rfl
    exact leads.not_temporary toSource
  have keeps : KeepsDirectories tree (tree.put source (.file content)) :=
    .put fun directory => absurd directory freeSource
  refine ⟨_, _, Tree.write_eq_ok_iff.2
    ⟨source, toSource, path.endsInSlash_temporary, freeSource, rfl⟩, Tree.rename_eq_ok_iff.2
    ⟨source, keeps.leadsTo toSource, target, keeps.leadsTo leads, ?_, ?_, content,
      Tree.find?_put_self .., rfl⟩⟩
  · rw [path.endsInSlash_temporary, ready.ends]
    simp
  · rwa [Tree.find?_put_of_ne apart]

/-- **A file is replaced** at a path that is ready, if nothing else goes wrong. -/
theorem outcome_replace_of_ready (ready : before.Ready path) (content : List UInt8) :
    (outcome (Store.replace path content) .calm before).1 = .ok () := by
  obtain ⟨target, leads, -⟩ := ready.target
  obtain ⟨made, after, written, renamed⟩ := ready.exists_rename content
  have writes : outcome (Store.write path.temporary content) .calm before = (.ok (), made) :=
    Disturbed.outcome_write_of_ok written
  have renames : outcome (Store.rename path.temporary path) .calm made = (.ok (), after) :=
    Disturbed.run_change_of_ok renamed
  rw [Store.replace, Disturbed.outcome_tryCatch, Store.replaceThrough, Disturbed.outcome_bind,
    outcome_makeDirectories_enclosing leads]
  dsimp only
  rw [Disturbed.outcome_bind, writes]
  dsimp only
  rw [renames]

end Lexer.Files
