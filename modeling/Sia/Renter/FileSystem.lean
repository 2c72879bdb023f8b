import Mathlib.Data.Nat.Notation
import Mathlib.Logic.Function.Basic

/-! File nodes of `modules/renter/filesystem`. A `FileNode` value embeds `node` by value: `path`,
`name`, `threads` and the `SiaFile` are pointers that every copy shares, while `parent` and the
thread UID are each copy's own. A directory's `files` map points at one `FileNode` value, and
opening a file hands the caller a copy of it.

Pointers are numbers: `nodes` holds the shared part of each loaded file, `fileNodes` the
`FileNode` values by address, and a `SiaFile` is numbered when it is loaded from disk. Thread UIDs
are drawn from a counter where the source draws them at random. The directories are fixed: they are
loaded and on disk, and this model opens, closes and renames the files in them, not the directories
themselves. A nil pointer is `none`; `build.Critical` only logs. -/
namespace Sia.Renter

/-- `ErrNotExist` and `ErrExists`. -/
inductive FsError where
  | errNotExist
  | errExists
  deriving DecidableEq, Repr

/-- The fields of `node` that every copy of a file node shares: `path`, as its directory and file
name, `name`, `threads`, and the `SiaFile` pointer. -/
structure SharedNode (D N : Type) where
  dir : D
  name : N
  threads : List ℕ
  siaFile : ℕ
  deriving DecidableEq, Repr

/-- A `FileNode` value: the shared node it points to, and the fields the value holds itself. -/
structure FileNode (D : Type) where
  node : ℕ
  parent : D
  threadUID : ℕ
  closed : Bool
  deriving DecidableEq, Repr

/-- The file nodes of a tree of fixed directories `D`, with file names `N`. -/
structure FileSystem (D N : Type) where
  nodes : ℕ → Option (SharedNode D N)
  fileNodes : ℕ → Option (FileNode D)
  /-- Each directory's `files` map. -/
  files : D → N → Option ℕ
  /-- Each directory's subdirectories, in memory or on disk. -/
  directories : D → N → Bool
  /-- The `.sia` files on disk. -/
  onDisk : D → N → Bool
  nodeCount : ℕ
  addressCount : ℕ
  loadCount : ℕ
  threadCount : ℕ

/-- `f` with the entry of directory `d` and name `n` set to `v`. -/
def setAt {D N α : Type} [DecidableEq D] [DecidableEq N] (f : D → N → α) (d : D) (n : N) (v : α) :
    D → N → α :=
  Function.update f d (Function.update (f d) n v)

@[simp]
theorem setAt_same {D N α : Type} [DecidableEq D] [DecidableEq N] (f : D → N → α) (d : D) (n : N) (v : α) :
    setAt f d n v d n = v := by
  simp [setAt]

namespace FileSystem

variable {D N : Type} [DecidableEq D] [DecidableEq N]

/-- `readonlyOpenFile`: the value the directory's map points at, or a value loaded from disk with a
new shared node and a new `SiaFile`, whose parent is the directory. -/
def readonlyOpenFile (fs : FileSystem D N) (dir : D) (fileName : N) : Except FsError (FileSystem D N × ℕ) :=
  match fs.files dir fileName with
  | some address => .ok (fs, address)
  | none =>
    if fs.onDisk dir fileName then
      .ok ({ fs with
          nodes := Function.update fs.nodes fs.nodeCount (some ⟨dir, fileName, [], fs.loadCount⟩)
          fileNodes := Function.update fs.fileNodes fs.addressCount (some ⟨fs.nodeCount, dir, 0, false⟩)
          nodeCount := fs.nodeCount + 1
          addressCount := fs.addressCount + 1
          loadCount := fs.loadCount + 1 }, fs.addressCount)
    else .error .errNotExist

/-- `managedCopy`: a new value with the fields of the one at `address`, open, with a new thread UID
that joins the shared threads. -/
def managedCopy (fs : FileSystem D N) (address : ℕ) : Option (FileSystem D N × ℕ) := do
  let fn ← fs.fileNodes address
  let shared ← fs.nodes fn.node
  let threadUID := fs.threadCount
  pure ({ fs with
      fileNodes := Function.update fs.fileNodes fs.addressCount (some { fn with closed := false, threadUID })
      nodes := Function.update fs.nodes fn.node (some { shared with threads := shared.threads ++ [threadUID] })
      addressCount := fs.addressCount + 1
      threadCount := fs.threadCount + 1 }, fs.addressCount)

/-- `openFile`: the value joins the directory's map, and the caller gets a copy of it. -/
def openFile (fs : FileSystem D N) (dir : D) (fileName : N) : Option (FileSystem D N × Except FsError ℕ) :=
  match fs.readonlyOpenFile dir fileName with
  | .error e => some (fs, .error e)
  | .ok (fs, address) => do
    let (fs, copy) ← ({ fs with files := setAt fs.files dir fileName (some address) } : FileSystem D N).managedCopy
      address
    pure (fs, .ok copy)

/-- `removeFile`: the directory's entry under the child's name goes, if it holds the child's
`SiaFile`. -/
def removeFile (fs : FileSystem D N) (dir : D) (child : ℕ) : Option (FileSystem D N) := do
  let fn ← fs.fileNodes child
  let shared ← fs.nodes fn.node
  match fs.files dir shared.name with
  | none => pure fs
  | some current =>
    let currentFn ← fs.fileNodes current
    let currentShared ← fs.nodes currentFn.node
    if shared.siaFile ≠ currentShared.siaFile then pure fs
    else pure { fs with files := setAt fs.files dir shared.name none }

/-- `FileNode.Close`: the value's thread leaves the shared threads, and the last one out removes
the node from the value's own `parent`. The parent's removal from its own parent concerns the
directories, which stay. -/
def close (fs : FileSystem D N) (address : ℕ) : Option (FileSystem D N) := do
  let fn ← fs.fileNodes address
  let shared ← fs.nodes fn.node
  -- closeNode: delete(n.threads, n.threadUID)
  let threads := shared.threads.erase fn.threadUID
  let fs := { fs with
    fileNodes := Function.update fs.fileNodes address (some { fn with closed := true })
    nodes := Function.update fs.nodes fn.node (some { shared with threads }) }
  if threads = [] then fs.removeFile fn.parent address else pure fs

/-- `childExists`: a file or directory of that name, in memory or on disk. -/
def childExists (fs : FileSystem D N) (dir : D) (name : N) : Bool :=
  (fs.files dir name).isSome || fs.directories dir name || fs.onDisk dir name

/-- `FileNode.managedRename` through the value at `address`: the file moves on disk, leaves the old
parent's map and joins the new one's. The name and path are shared; the parent is set in this value
alone. -/
def managedRename (fs : FileSystem D N) (address : ℕ) (newName : N) (oldParent newParent : D) :
    Option (FileSystem D N × Except FsError Unit) := do
  if fs.childExists newParent newName then pure (fs, .error .errExists)
  else
    let fn ← fs.fileNodes address
    let shared ← fs.nodes fn.node
    -- `SiaFile.Rename`: the new path is free on disk, as `childExists` checked
    let onDisk := setAt (setAt fs.onDisk shared.dir shared.name false) newParent newName true
    let fs ← ({ fs with onDisk } : FileSystem D N).removeFile oldParent address
    pure ({ fs with
      fileNodes := Function.update fs.fileNodes address (some { fn with parent := newParent })
      nodes := Function.update fs.nodes fn.node (some { shared with dir := newParent, name := newName })
      files := setAt fs.files newParent newName (some address) }, .ok ())

/-- `RenameFile`: the file is opened from its old directory, renamed through that copy, and the
copy is closed, as the deferred `Close` does, whatever the rename returned. The directories exist,
so `NewSiaDir` leaves the files as they are. -/
def renameFile (fs : FileSystem D N) (oldDir : D) (oldName : N) (newDir : D) (newName : N) :
    Option (FileSystem D N × Except FsError Unit) := do
  let (fs, opened) ← fs.openFile oldDir oldName
  match opened with
  | .error e => pure (fs, .error e)
  | .ok sf =>
    let (fs, renamed) ← fs.managedRename sf newName oldDir newDir
    let fs ← fs.close sf
    pure (fs, renamed)

/-! ### A copy left behind by a rename -/

/-- `removeFile` edits the maps alone. -/
theorem removeFile_fileNodes {fs fs' : FileSystem D N} {dir : D} {child : ℕ}
    (removed : fs.removeFile dir child = some fs') : fs'.fileNodes = fs.fileNodes ∧ fs'.nodes = fs.nodes := by
  unfold removeFile at removed
  obtain ⟨fn, _, rest⟩ := Option.bind_eq_some_iff.mp removed
  obtain ⟨shared, _, rest⟩ := Option.bind_eq_some_iff.mp rest
  split at rest
  · cases rest
    exact ⟨rfl, rfl⟩
  obtain ⟨currentFn, _, rest⟩ := Option.bind_eq_some_iff.mp rest
  obtain ⟨currentShared, _, rest⟩ := Option.bind_eq_some_iff.mp rest
  split at rest <;> cases rest <;> exact ⟨rfl, rfl⟩

/-- A rename through one value moves the node's path to the new parent and sets the parent of that
value alone: every other value, every other copy of the node among them, keeps the parent it had. -/
theorem managedRename_moves {fs fs' : FileSystem D N} {address : ℕ} {newName : N} {oldParent newParent : D}
    (renamed : fs.managedRename address newName oldParent newParent = some (fs', .ok ())) :
    ∃ fn shared, fs.fileNodes address = some fn ∧ fs.nodes fn.node = some shared ∧
      fs'.nodes fn.node = some { shared with dir := newParent, name := newName } ∧
      fs'.fileNodes address = some { fn with parent := newParent } ∧
      fs'.files newParent newName = some address ∧
      ∀ other, other ≠ address → fs'.fileNodes other = fs.fileNodes other := by
  unfold managedRename at renamed
  split at renamed
  · cases renamed
  obtain ⟨fn, read, rest⟩ := Option.bind_eq_some_iff.mp renamed
  obtain ⟨shared, readShared, rest⟩ := Option.bind_eq_some_iff.mp rest
  obtain ⟨removedFs, removed, rest⟩ := Option.bind_eq_some_iff.mp rest
  cases rest
  obtain ⟨sameValues, _⟩ := removeFile_fileNodes removed
  refine ⟨fn, shared, read, readShared, by simp, by simp, by simp, fun other different => ?_⟩
  simp only [Function.update_of_ne different, sameValues]

/-- Every other copy of the renamed node keeps its parent while the node's path moves into the new
parent: after a rename into another directory, the two disagree. -/
theorem managedRename_leaves_copies {fs fs' : FileSystem D N} {address other : ℕ} {newName : N}
    {oldParent newParent : D} {fn copy : FileNode D}
    (renamed : fs.managedRename address newName oldParent newParent = some (fs', .ok ()))
    (through : fs.fileNodes address = some fn) (different : other ≠ address)
    (held : fs.fileNodes other = some copy) (sameNode : copy.node = fn.node) :
    ∃ shared, fs'.fileNodes other = some copy ∧ fs'.nodes copy.node = some shared ∧ shared.dir = newParent := by
  obtain ⟨fn', shared, read, _, moved, _, _, others⟩ := managedRename_moves renamed
  obtain rfl : fn' = fn := Option.some.inj (read.symm.trans through)
  exact ⟨_, by rw [others other different, held], by rw [sameNode, moved], rfl⟩

/-- A file opened once, renamed into another directory, and closed: the handle kept its old parent
through the rename, and once it is closed the node stays in the new directory's map with no copy
open. -/
theorem renamed_file_outlives_handles (fs : FileSystem D N) {a b : D} {f g : N} (distinct : a ≠ b)
    (unopened : fs.files a f = none) (stored : fs.onDisk a f = true) (free : fs.childExists b g = false)
    (unused : fs.files a g = none) :
    ∃ fs₁ u fs₂ fs₃ r fnU fnR shared,
      fs.openFile a f = some (fs₁, .ok u) ∧ fs₁.renameFile a f b g = some (fs₂, .ok ()) ∧
      fs₂.close u = some fs₃ ∧
      fs₂.fileNodes u = some fnU ∧ fnU.closed = false ∧ fnU.parent = a ∧
      fs₂.files b g = some r ∧ fs₂.fileNodes r = some fnR ∧ fnR.node = fnU.node ∧ fnR.parent = b ∧
      fs₃.files b g = some r ∧ fs₃.nodes fnR.node = some shared ∧ shared.threads = [] := by
  have ba : b ≠ a := Ne.symm distinct
  simp only [childExists, Bool.or_eq_false_iff, Option.isSome_eq_false_iff, Option.isNone_iff_eq_none] at free
  obtain ⟨⟨noFile, noDir⟩, notOnDisk⟩ := free
  -- opening loads `f` into a new node, puts its value at `A` in the map of `a`, and hands out a copy
  -- at `A + 1`; the rename opens a copy at `A + 2`, moves the node to `b` through it and closes it;
  -- closing the copy at `A + 1` then removes the node from its own, stale, parent `a`, which no
  -- longer holds it
  simp [openFile, readonlyOpenFile, unopened, stored, managedCopy, renameFile, managedRename, childExists,
    removeFile, close, setAt, Function.update_apply, Nat.add_assoc, noFile, noDir, notOnDisk, unused, ba,
    distinct, exists_and_left, exists_eq_left', and_assoc]

/-- One file `0` on disk in directory `0`, renamed to `1` in directory `1`. -/
def oneFileSystem : FileSystem (Fin 2) (Fin 2) where
  nodes := fun _ => none
  fileNodes := fun _ => none
  files := fun _ _ => none
  directories := fun _ _ => false
  onDisk := fun d n => d.val = 0 && n.val = 0
  nodeCount := 0
  addressCount := 0
  loadCount := 0
  threadCount := 0

theorem oneFileSystem_rename_outlives :
    ∃ fs₁ u fs₂ fs₃ r fnU fnR shared,
      oneFileSystem.openFile 0 0 = some (fs₁, .ok u) ∧ fs₁.renameFile 0 0 1 1 = some (fs₂, .ok ()) ∧
      fs₂.close u = some fs₃ ∧
      fs₂.fileNodes u = some fnU ∧ fnU.closed = false ∧ fnU.parent = 0 ∧
      fs₂.files 1 1 = some r ∧ fs₂.fileNodes r = some fnR ∧ fnR.node = fnU.node ∧ fnR.parent = 1 ∧
      fs₃.files 1 1 = some r ∧ fs₃.nodes fnR.node = some shared ∧ shared.threads = [] :=
  renamed_file_outlives_handles oneFileSystem (by decide) rfl rfl rfl rfl

end FileSystem

end Sia.Renter
