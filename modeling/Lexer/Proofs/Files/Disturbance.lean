import Lexer.Files.Store
import Lexer.Proofs.Files.Places

/-! # Disturbed stores

A tree refuses an operation for what it holds; it has no links and no permissions.  A machine may refuse one for
other reasons, in the middle of writing too.  **A disturbance** says what goes wrong when directories are made and
when files are opened, written and renamed; reading and removing are never refused by one.  A tree under a
disturbance is a store again: an undisturbed one is the tree itself.  A program is followed by what it allows to
become of the tree, however it ends. -/

namespace Lexer.Files

/-! ## (1) Disturbances -/

/-- **A disturbance**: what goes wrong on a store, apart from what its tree refuses.  Nothing goes wrong when a
file is read or removed. -/
structure Disturbance where
  /-- Why a directory cannot be made. -/
  making : Path → Option Fault
  /-- Why a file cannot be opened to be written. -/
  creating : Path → Option Fault
  /-- Why only some first bytes arrive in a file that is written, and their number. -/
  writing : Path → Option (Nat × Fault)
  /-- Why a file cannot be renamed. -/
  moving : Path → Option Fault

/-- Nothing goes wrong. -/
def Disturbance.calm : Disturbance :=
  ⟨fun _ => none, fun _ => none, fun _ => none, fun _ => none⟩

/-- A file tree under a disturbance. -/
abbrev Disturbed := ReaderT Disturbance (StateM Tree)

/-- A change, unless a fault prevents it. -/
def Tree.changeUnless (prevented : Option Fault) (operation : Tree → Except Fault Tree) :
    ExceptT Fault (StateM Tree) Unit :=
  match prevented with
  | some fault => throw fault
  | none => Tree.change operation

/-- A file with some content, unless a fault prevents that it is opened. -/
def Disturbance.create (disturbance : Disturbance) (path : Path) (content : List UInt8) :
    ExceptT WriteFault (StateM Tree) Unit :=
  (Tree.changeUnless (disturbance.creating path) (·.write path content)).adapt .opening

/-- Writing a file, which may end with a fault after some bytes. -/
def Disturbance.overwrite (disturbance : Disturbance) (path : Path) (content : List UInt8) :
    ExceptT WriteFault (StateM Tree) Unit :=
  match disturbance.writing path with
  | some (count, fault) => do
      disturbance.create path (content.take count)
      throw (.writing fault)
  | none => disturbance.create path content

/-- **A tree under a disturbance** is a store.  Reading, looking and removing are not disturbed. -/
instance : Store Disturbed where
  read path := ExceptT.mk fun _ => (Store.read path : ExceptT ReadFault (StateM Tree) _).run
  isDirectory path := fun _ => Store.isDirectory path
  makeDirectory path := ExceptT.mk fun disturbance =>
    (Tree.changeUnless (disturbance.making path) (·.makeDirectory path)).run
  overwrite path content := ExceptT.mk fun disturbance => (disturbance.overwrite path content).run
  rename old new := ExceptT.mk fun disturbance =>
    (Tree.changeUnless (disturbance.moving old) (·.rename old new)).run
  remove path := ExceptT.mk fun _ => (Store.remove path : ExceptT Fault (StateM Tree) _).run

namespace Disturbed

variable {ε α β : Type} {disturbance : Disturbance} {tree : Tree} {path : Path}

/-! ## (2) Outcomes -/

/-- **The outcome** of a program on a tree: its result and the tree that it leaves. -/
def outcome (program : ExceptT ε Disturbed α) (disturbance : Disturbance) (tree : Tree) :
    Except ε α × Tree :=
  ((program.run.run disturbance).run tree).run

/-- The second program goes on where the first one succeeds. -/
theorem outcome_bind (program : ExceptT ε Disturbed α) (next : α → ExceptT ε Disturbed β) :
    outcome (program >>= next) disturbance tree =
      match outcome program disturbance tree with
      | (.ok value, left) => outcome (next value) disturbance left
      | (.error fault, left) => (.error fault, left) := by
  change (ExceptT.bindCont next (outcome program disturbance tree).1 disturbance
    (outcome program disturbance tree).2) = _
  rcases outcome program disturbance tree with ⟨_ | _, left⟩
  · rfl
  · rfl

/-- The handler goes on where a program fails. -/
theorem outcome_tryCatch (program : ExceptT ε Disturbed α) (handler : ε → ExceptT ε Disturbed α) :
    outcome (tryCatch program handler) disturbance tree =
      match outcome program disturbance tree with
      | (.ok value, left) => (.ok value, left)
      | (.error fault, left) => outcome (handler fault) disturbance left := by
  change ((match (outcome program disturbance tree).1 with
    | .ok value => pure (.ok value)
    | .error fault => handler fault : Disturbed (Except ε α)) disturbance
    (outcome program disturbance tree).2) = _
  rcases outcome program disturbance tree with ⟨_ | _, left⟩
  · rfl
  · rfl

/-- Other faults in a result leave the same tree. -/
theorem outcome_adapt {ε' : Type} (program : ExceptT ε Disturbed α) (report : ε → ε') :
    outcome (program.adapt report) disturbance tree =
      ((outcome program disturbance tree).1.mapError report, (outcome program disturbance tree).2) :=
  rfl

/-! ## (3) Operations -/

/-- **The outcomes of an operation** that changes a tree. -/
inductive Attempt (operation : Tree → Except Fault Tree) (before : Tree) :
    Except Fault Unit × Tree → Prop where
  /-- The tree is changed. -/
  | done {after : Tree} (changed : operation before = .ok after) :
      Attempt operation before (.ok (), after)
  /-- The tree stays as it was. -/
  | refused (fault : Fault) : Attempt operation before (.error fault, before)

/-- **A change** is made or not, as the operation says. -/
theorem run_change (operation : Tree → Except Fault Tree) (tree : Tree) :
    ((Tree.change operation).run.run tree).run =
      ((operation tree).map fun _ => (), (operation tree).toOption.getD tree) := by
  unfold Tree.change
  dsimp only [ExceptT.mk, ExceptT.run, StateT.run, Id.run]
  cases operation tree with
  | ok changed => rfl
  | error fault => rfl

/-- A change that is made succeeds. -/
theorem run_change_of_ok {operation : Tree → Except Fault Tree} {after : Tree}
    (changed : operation tree = .ok after) :
    ((Tree.change operation).run.run tree).run = (.ok (), after) := by
  rw [run_change, changed]
  rfl

/-- A change that is refused fails. -/
theorem run_change_of_error {operation : Tree → Except Fault Tree} {fault : Fault}
    (refused : operation tree = .error fault) :
    ((Tree.change operation).run.run tree).run = (.error fault, tree) := by
  rw [run_change, refused]
  rfl

/-- A change that may be prevented is done or refused. -/
theorem attempt_changeUnless (prevented : Option Fault) (operation : Tree → Except Fault Tree) :
    Attempt operation tree ((Tree.changeUnless prevented operation).run.run tree).run := by
  cases prevented with
  | some fault => exact .refused fault
  | none =>
      rw [Tree.changeUnless]
      cases changed : operation tree with
      | ok after =>
          rw [run_change_of_ok changed]
          exact .done changed
      | error fault =>
          rw [run_change_of_error changed]
          exact .refused fault

/-- A directory is made, or not. -/
theorem attempt_makeDirectory (disturbance : Disturbance) (tree : Tree) (path : Path) :
    Attempt (·.makeDirectory path) tree (outcome (Store.makeDirectory path) disturbance tree) :=
  attempt_changeUnless (disturbance.making path) (·.makeDirectory path)

/-- A file is renamed, or not. -/
theorem attempt_rename (disturbance : Disturbance) (tree : Tree) (old new : Path) :
    Attempt (·.rename old new) tree (outcome (Store.rename old new) disturbance tree) :=
  attempt_changeUnless (disturbance.moving old) (·.rename old new)

/-- A file is removed, or not; nothing but the tree decides. -/
theorem outcome_remove (path : Path) : outcome (Store.remove path) disturbance tree =
    ((tree.remove path).map fun _ => (), (tree.remove path).toOption.getD tree) :=
  run_change (·.remove path) tree

/-- **The outcomes of writing** a file. -/
inductive Written (disturbance : Disturbance) (path : Path) (content : List UInt8) (before : Tree) :
    Except WriteFault Unit × Tree → Prop where
  /-- All of the content is in the file. -/
  | complete {after : Tree} (changed : before.write path content = .ok after) :
      Written disturbance path content before (.ok (), after)
  /-- Writing was broken off, and some of the content is in the file. -/
  | broken {after : Tree} (part : List UInt8) (fault : Fault)
      (breaks : disturbance.writing path ≠ none) (changed : before.write path part = .ok after) :
      Written disturbance path content before (.error (.writing fault), after)
  /-- The file was not opened, and the tree stays as it was. -/
  | refused (fault : Fault) :
      Written disturbance path content before (.error (.opening fault), before)

/-- A file is created, or it is not opened. -/
theorem run_create (disturbance : Disturbance) (tree : Tree) (path : Path) (content : List UInt8) :
    (∃ after, tree.write path content = .ok after ∧
      ((disturbance.create path content).run.run tree).run = (.ok (), after)) ∨
    ∃ fault, ((disturbance.create path content).run.run tree).run = (.error (.opening fault), tree) := by
  have attempt := @attempt_changeUnless tree (disturbance.creating path) (·.write path content)
  have adapted : ((disturbance.create path content).run.run tree).run =
      (((Tree.changeUnless (disturbance.creating path)
          (·.write path content)).run.run tree).run.1.mapError .opening,
        ((Tree.changeUnless (disturbance.creating path)
          (·.write path content)).run.run tree).run.2) := rfl
  rw [adapted]
  generalize ((Tree.changeUnless (disturbance.creating path)
    (·.write path content)).run.run tree).run = outcome at attempt
  cases attempt with
  | done changed => exact .inl ⟨_, changed, rfl⟩
  | refused fault => exact .inr ⟨fault, rfl⟩

/-- A file is written, in part or not at all. -/
theorem written_overwrite (disturbance : Disturbance) (tree : Tree) (path : Path)
    (content : List UInt8) : Written disturbance path content tree
      (outcome (Store.overwrite path content) disturbance tree) := by
  change Written disturbance path content tree ((disturbance.overwrite path content).run.run tree).run
  rw [Disturbance.overwrite]
  split
  · next count fault breaks =>
      -- whatever comes of the first bytes, the fault comes behind them
      change Written disturbance path content tree ((ExceptT.bindCont (fun _ => throw (.writing fault))
        ((disturbance.create path (content.take count)).run.run tree).run.1 :
          StateM Tree (Except WriteFault Unit))
        ((disturbance.create path (content.take count)).run.run tree).run.2)
      rcases run_create disturbance tree path (content.take count) with
        ⟨after, changed, done⟩ | ⟨cause, refused⟩
      · rw [done]
        exact .broken _ fault (by rw [breaks]; exact Option.some_ne_none _) changed
      · rw [refused]
        exact .refused cause
  · rcases run_create disturbance tree path content with ⟨after, changed, done⟩ | ⟨cause, refused⟩
    · rw [done]
      exact .complete changed
    · rw [refused]
      exact .refused cause

/-- A file is written where nothing goes wrong. -/
theorem outcome_write_of_ok {content : List UInt8} {after : Tree}
    (changed : tree.write path content = .ok after) :
    outcome (Store.write path content) .calm tree = (.ok (), after) := by
  rw [Store.write, outcome_adapt]
  change ((((Tree.change (·.write path content)).run.run tree).run.1.mapError
    WriteFault.opening).mapError WriteFault.cause,
      ((Tree.change (·.write path content)).run.run tree).run.2) = _
  rw [run_change_of_ok changed]
  rfl

/-- **The outcomes of emitting** a file. -/
inductive Emitted (disturbance : Disturbance) (path : Path) (content : List UInt8) (before : Tree) :
    Except Fault Unit × Tree → Prop where
  /-- The file was opened, and all of the content is in it if writing was not broken off. -/
  | opened {after : Tree} (part : List UInt8)
      (whole : disturbance.writing path = none → part = content)
      (changed : before.write path part = .ok after) :
      Emitted disturbance path content before (.ok (), after)
  /-- The file was not opened, and the tree stays as it was. -/
  | refused (fault : Fault) : Emitted disturbance path content before (.error fault, before)

/-- A file that is emitted is opened, or not. -/
theorem emitted_emit (disturbance : Disturbance) (tree : Tree) (path : Path)
    (content : List UInt8) :
    Emitted disturbance path content tree (outcome (Store.emit path content) disturbance tree) := by
  have written := written_overwrite disturbance tree path content
  have opened : outcome (Store.emit path content) disturbance tree =
      (WriteFault.opened (outcome (Store.overwrite path content) disturbance tree).1,
        (outcome (Store.overwrite path content) disturbance tree).2) := rfl
  rw [opened]
  generalize outcome (Store.overwrite path content) disturbance tree = result at written
  cases written with
  | complete changed => exact .opened content (fun _ => rfl) changed
  | broken part fault breaks changed => exact .opened part (fun calm => absurd calm breaks) changed
  | refused fault => exact .refused fault

/-! ## (4) The undisturbed tree -/

/-- **A program on a tree is the same** as on the tree under no disturbance. -/
def Agree (disturbed : ExceptT ε Disturbed α) (plain : ExceptT ε (StateM Tree) α) : Prop :=
  disturbed.run.run .calm = plain.run

/-- Programs that agree agree in sequence. -/
theorem Agree.bind {disturbed : ExceptT ε Disturbed α} {plain : ExceptT ε (StateM Tree) α}
    {next : α → ExceptT ε Disturbed β} {plainNext : α → ExceptT ε (StateM Tree) β}
    (first : Agree disturbed plain) (second : ∀ value, Agree (next value) (plainNext value)) :
    Agree (disturbed >>= next) (plain >>= plainNext) := by
  have both : (fun result => (ExceptT.bindCont next result).run .calm) =
      ExceptT.bindCont plainNext := by
    funext result
    cases result with
    | ok value => exact second value
    | error fault => rfl
  change (disturbed.run.run .calm >>= fun result => (ExceptT.bindCont next result).run .calm) = _
  rw [both, first]
  rfl

/-- Programs that agree agree where their faults are handled. -/
theorem Agree.tryCatch {disturbed : ExceptT ε Disturbed α} {plain : ExceptT ε (StateM Tree) α}
    {handler : ε → ExceptT ε Disturbed α} {plainHandler : ε → ExceptT ε (StateM Tree) α}
    (first : Agree disturbed plain) (second : ∀ fault, Agree (handler fault) (plainHandler fault)) :
    Agree (tryCatch disturbed handler) (tryCatch plain plainHandler) := by
  have both : (fun result : Except ε α => (match result with
        | .ok value => pure (.ok value)
        | .error fault => handler fault : Disturbed (Except ε α)).run .calm) =
      fun result : Except ε α => (match result with
        | .ok value => pure (.ok value)
        | .error fault => plainHandler fault : StateM Tree (Except ε α)) := by
    funext result
    cases result with
    | ok value => rfl
    | error fault => exact second fault
  change (disturbed.run.run .calm >>= fun result : Except ε α => (match result with
    | .ok value => pure (.ok value)
    | .error fault => handler fault : Disturbed (Except ε α)).run .calm) = _
  rw [both, first]
  rfl

/-- Programs that agree agree with other faults in their results. -/
theorem Agree.adapt {ε' : Type} {disturbed : ExceptT ε Disturbed α}
    {plain : ExceptT ε (StateM Tree) α} (same : Agree disturbed plain) (report : ε → ε') :
    Agree (disturbed.adapt report) (plain.adapt report) := by
  change Except.mapError report <$> disturbed.run.run .calm = Except.mapError report <$> plain.run
  rw [same]

/-- Programs that agree have the same outcomes. -/
theorem Agree.outcome_eq {disturbed : ExceptT ε Disturbed α} {plain : ExceptT ε (StateM Tree) α}
    (same : Agree disturbed plain) (tree : Tree) :
    outcome disturbed .calm tree = (plain.run.run tree).run :=
  congrArg (fun program => (program.run tree).run) same

/-- Writing a file is the same on an undisturbed tree. -/
theorem agree_write (path : Path) (content : List UInt8) :
    Agree (Store.write path content) (Store.write path content) :=
  Agree.adapt rfl WriteFault.cause

/-- Looking for a directory is the same on an undisturbed tree. -/
theorem agree_isDirectory (path : Path) (fault : Fault) :
    Agree
      (do if ← (Store.isDirectory path : Disturbed Bool) then return () else throw fault :
        ExceptT Fault Disturbed Unit)
      (do if ← (Store.isDirectory path : StateM Tree Bool) then return () else throw fault) := by
  refine Agree.bind rfl fun isDirectory => ?_
  cases isDirectory with
  | false => rfl
  | true => rfl

/-- Making sure of a directory is the same on an undisturbed tree. -/
theorem agree_ensureDirectory (path : Path) :
    Agree (Store.ensureDirectory path) (Store.ensureDirectory path) :=
  Agree.tryCatch rfl (agree_isDirectory path)

/-- Making directories is the same on an undisturbed tree. -/
theorem agree_makeDirectories (paths : List Path) :
    Agree (Store.makeDirectories paths) (Store.makeDirectories paths) := by
  induction paths with
  | nil => rfl
  | cons path enclosing ih =>
      refine Agree.tryCatch rfl fun fault => ?_
      by_cases missing : fault = .notFound
      · rw [if_pos missing, if_pos missing]
        exact ih.bind fun _ => agree_ensureDirectory path
      · rw [if_neg missing, if_neg missing]
        exact agree_isDirectory path fault

/-- **Replacing a file** is the same on an undisturbed tree. -/
theorem agree_replace (path : Path) (content : List UInt8) :
    Agree (Store.replace path content) (Store.replace path content) := by
  refine Agree.tryCatch ?_ fun fault => Agree.bind ?_ fun _ => rfl
  · exact (agree_makeDirectories path.enclosing).bind fun _ =>
      (agree_write path.temporary content).bind fun _ => rfl
  · exact Agree.tryCatch rfl fun _ => rfl

end Disturbed

end Lexer.Files
