import Mathlib.Data.List.Basic

/-! `persist/json.go`: `SaveJSON` writes an object's JSON, with two metadata lines and a
checksum, to a temp file and then to the real file, each with a sync, and skips the temp file
when the real file fails its checksum, so that the temp file keeps the last good copy.
`LoadJSON` reads the real file and falls back to the temp file on a read error, except when the
real file is missing or has the wrong header or version.

A save is the list of file operations it makes and a crash is a prefix of that list, so that
every crash point is a length. The disk after a crash is the one in which every operation before
it took effect, an outcome every crash model allows. The JSON and checksum code is the
`JSONCodec`: the bytes a save writes, what `readJSON` makes of a file's bytes, and what
`verifyChecksum` says of them. -/
namespace Sia.Persist

/-- The errors `readJSON` and `LoadJSON` return. -/
inductive JSONError where
  /-- `os.IsNotExist`: the file is missing. -/
  | notExist
  /-- `ErrBadHeader` -/
  | badHeader
  /-- `ErrBadVersion` -/
  | badVersion
  /-- Any other error of `readJSON`: metadata, checksum or object that does not decode. -/
  | unreadable
  /-- "unable to read persisted json object from disk", around the temp file's error. -/
  | fromDisk (err : JSONError)
  deriving DecidableEq, Repr

/-- The JSON layer of one object type and metadata. -/
structure JSONCodec (α : Type) where
  /-- The bytes `SaveJSON` builds: header and version lines, checksum line, indented object. -/
  encode : α → List UInt8
  /-- `readJSON` on the bytes of a file that exists. -/
  parse : List UInt8 → Except JSONError α
  /-- `verifyChecksum` on the bytes of a file that exists. -/
  verify : List UInt8 → Bool

/-- The two files of a persisted object: the named one and the one with `tempSuffix`; `none` is
a file that does not exist. -/
structure Disk where
  real : Option (List UInt8)
  temp : Option (List UInt8)
  deriving DecidableEq, Repr

inductive FileName where
  | real
  | temp
  deriving DecidableEq, Repr

/-- The file operations `SaveJSON` makes. -/
inductive DiskOp where
  /-- `os.OpenFile` with `O_TRUNC|O_CREATE`: the file exists and is empty. -/
  | openTrunc (name : FileName)
  /-- `file.Write`, at the end of what the file holds. -/
  | write (name : FileName) (data : List UInt8)
  /-- `file.Sync` -/
  | sync (name : FileName)
  deriving DecidableEq, Repr

namespace Disk

def get (d : Disk) : FileName → Option (List UInt8)
  | .real => d.real
  | .temp => d.temp

def set (d : Disk) (contents : Option (List UInt8)) : FileName → Disk
  | .real => { d with real := contents }
  | .temp => { d with temp := contents }

def apply (d : Disk) : DiskOp → Disk
  | .openTrunc name => d.set (some []) name
  | .write name data => d.set (some ((d.get name).getD [] ++ data)) name
  | .sync _ => d

def applyAll (d : Disk) (ops : List DiskOp) : Disk := ops.foldl apply d

end Disk

variable {α : Type} (codec : JSONCodec α)

/-- `verifyChecksum`: a missing file passes. -/
def verifyChecksum : Option (List UInt8) → Bool
  | none => true
  | some bytes => codec.verify bytes

/-- `readJSON` -/
def readJSON : Option (List UInt8) → Except JSONError α
  | none => .error .notExist
  | some bytes => codec.parse bytes

/-- The operations of `SaveJSON(object)` on the disk `d` it starts from: the temp file is
written and synced only if the real file passes its checksum, then the real file is. -/
def saveJSONOps (d : Disk) (object : α) : List DiskOp :=
  let data := codec.encode object
  (if verifyChecksum codec d.real then [.openTrunc .temp, .write .temp data, .sync .temp]
    else []) ++
  [.openTrunc .real, .write .real data, .sync .real]

/-- `SaveJSON` run to its end. -/
def saveJSON (d : Disk) (object : α) : Disk := d.applyAll (saveJSONOps codec d object)

/-- `LoadJSON`: a missing real file, or one with the wrong header or version, is an error; any
other error of the real file falls back to the temp file. -/
def loadJSON (d : Disk) : Except JSONError α :=
  match readJSON codec d.real with
  | .ok object => .ok object
  | .error err =>
    if err = .badHeader ∨ err = .badVersion ∨ err = .notExist then .error err
    else
      match readJSON codec d.temp with
      | .ok object => .ok object
      | .error err => .error (.fromDisk err)

/-! ### Saves that finish -/

section Laws

variable {codec}

/-- A save that runs to its end leaves the object's bytes in the real file. -/
theorem saveJSON_real (d : Disk) (object : α) :
    (saveJSON codec d object).real = some (codec.encode object) := by
  unfold saveJSON saveJSONOps
  split <;> rfl

/-- With no crash, a load after a save reads the object back, whatever the disk held. -/
theorem loadJSON_saveJSON (roundTrip : ∀ object, codec.parse (codec.encode object) = .ok object)
    (d : Disk) (object : α) : loadJSON codec (saveJSON codec d object) = .ok object := by
  simp only [loadJSON, readJSON, saveJSON_real, roundTrip]

/-- Once a save has finished, a crash anywhere in the next one leaves a disk from which
`LoadJSON` reads one of the two objects: the real file keeps the old one until it is opened for
the new one, and from then on the synced temp file holds the new one. -/
theorem loadJSON_crash_after_save
    (roundTrip : ∀ object, codec.parse (codec.encode object) = .ok object)
    (verified : ∀ object, codec.verify (codec.encode object) = true)
    (emptyUnreadable : codec.parse [] = .error .unreadable)
    (d : Disk) (old new : α) (saved : d.real = some (codec.encode old)) (k : ℕ) :
    loadJSON codec (d.applyAll ((saveJSONOps codec d new).take k)) = .ok old ∨
      loadJSON codec (d.applyAll ((saveJSONOps codec d new).take k)) = .ok new := by
  have ops : saveJSONOps codec d new =
      [.openTrunc .temp, .write .temp (codec.encode new), .sync .temp,
        .openTrunc .real, .write .real (codec.encode new), .sync .real] := by
    simp [saveJSONOps, verifyChecksum, saved, verified]
  rw [ops]
  -- the crash points before the real file is opened, at its opening, and after its write
  rcases k with _ | _ | _ | _ | _ | _ | k <;>
    simp [Disk.applyAll, Disk.apply, Disk.set, Disk.get, loadJSON, readJSON, saved, roundTrip,
      emptyUnreadable]

end Laws

/-! ### A crash in the first save -/

/-- The codec that writes and reads bytes as they are. -/
def bytesCodec : JSONCodec (List UInt8) := ⟨id, .ok, fun _ => true⟩

end Sia.Persist
