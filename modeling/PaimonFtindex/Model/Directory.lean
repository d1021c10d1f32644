/-
core/src/archive_directory.rs: `impl Directory for ArchiveDirectory`,
the archive as Tantivy sees it.

A method that only looks at the file map answers at once. Reading goes
through a file handle, and so through the cache all handles share: it is
a program over the steps of the cache. A method that would change the
archive is refused, and so is every lock but one.

Tantivy has an error type for each kind of method; `DirectoryError` has
the cases of them all that the crate builds. Paths are compared by their
components.
-/
import PaimonFtindex.Model.ArchiveDirectory

namespace PaimonFtindex.Model

open Lib

/-- `OpenReadError`, `OpenWriteError`, `DeleteError` and `LockError`, and
how a file handle fails. An error wrapped without a path has none. -/
inductive DirectoryError where
  | fileDoesNotExist (filepath : String)
  | ioError (error : IoError) (filepath : Option String)
  | panic (kind : Panic)
  deriving DecidableEq, Repr

abbrev DirectoryProg := Prog CacheOp CacheOp.Res DirectoryError

/-- `read_only_error`. -/
def readOnlyError : IoError :=
  ⟨.permissionDenied, "archive directory is read-only"⟩

/-- The failure of a read, with the path it is wrapped with. -/
def DirectoryError.ofRead (filepath : Option String) :
    ReadFault → DirectoryError
  | .io error => .ioError error filepath
  | .panic kind => .panic kind

namespace ArchiveDirectory

variable (directory : ArchiveDirectory)

/-- `get_file_handle`, with the error of a missing file. -/
def openRead (path : String) : DirectoryProg ArchiveFileHandle :=
  match directory.getFileHandle path with
  | some handle => .ret handle
  | none => .fail (.fileDoesNotExist path)

/-- `exists`. -/
def fileExists (path : String) : Bool :=
  decide (components path ∈ directory.files)

/-- `delete`. -/
def delete (path : String) : DirectoryProg Unit :=
  if directory.fileExists path then .fail (.ioError readOnlyError (some path))
  else .fail (.fileDoesNotExist path)

/-- `open_write`. -/
def openWrite (path : String) : DirectoryProg Unit :=
  .fail (.ioError readOnlyError (some path))

/-- `read_bytes` of the handle on a path. -/
def readBytes (build : Build) (path : String) (range : ByteRange) :
    DirectoryProg Bytes := do
  let handle ← directory.openRead path
  (handle.readBytes build range).mapError (.ofRead none)

/-- `atomic_read`: the whole file. -/
def atomicRead (build : Build) (path : String) : DirectoryProg Bytes := do
  let handle ← directory.openRead path
  (handle.readBytes build ⟨0, handle.length⟩).mapError (.ofRead (some path))

/-- `atomic_write`. -/
def atomicWrite (_path : String) (_data : Bytes) : DirectoryProg Unit :=
  .fail (.ioError readOnlyError none)

/-- `sync_directory`. -/
def syncDirectory : DirectoryProg Unit := .ret ()

/-- `acquire_lock`; `metaLock` is the path of `META_LOCK`. -/
def acquireLock (metaLock filepath : String) : DirectoryProg Unit :=
  if components filepath = components metaLock then .ret ()
  else .fail (.ioError readOnlyError none)

end ArchiveDirectory

-- ============================================================== the calls

/-- The calls Tantivy makes on a directory. -/
inductive DirectoryCall where
  | fileExists (path : String)
  | length (path : String)
  | readBytes (path : String) (range : ByteRange)
  | atomicRead (path : String)
  | delete (path : String)
  | openWrite (path : String)
  | atomicWrite (path : String) (data : Bytes)
  | syncDirectory
  | acquireLock (filepath : String)
  deriving DecidableEq, Repr

inductive DirectoryAnswer where
  | done
  | found (found : Bool)
  | length (length : UInt64)
  | bytes (bytes : Bytes)
  deriving DecidableEq, Repr

/-- A call, as its program. -/
def ArchiveDirectory.perform (build : Build) (metaLock : String)
    (directory : ArchiveDirectory) :
    DirectoryCall → DirectoryProg DirectoryAnswer
  | .fileExists path => .ret (.found (directory.fileExists path))
  | .length path => do
      let handle ← directory.openRead path
      return .length handle.length
  | .readBytes path range => do
      return .bytes (← directory.readBytes build path range)
  | .atomicRead path => do
      return .bytes (← directory.atomicRead build path)
  | .delete path => do
      directory.delete path
      return .done
  | .openWrite path => do
      openWrite path
      return .done
  | .atomicWrite path data => do
      atomicWrite path data
      return .done
  | .syncDirectory => do
      syncDirectory
      return .done
  | .acquireLock filepath => do
      acquireLock metaLock filepath
      return .done

/-- Tantivy reading an index: calls on its directory, each in the light
of the answers so far. -/
abbrev IndexReading (α : Type) : Type :=
  Prog DirectoryCall (fun _ => Except DirectoryError DirectoryAnswer)
    TantivyError α

/-- The reading, through the directory of an archive. -/
def readThrough {α : Type} (build : Build) (metaLock : String)
    (directory : ArchiveDirectory) (reading : IndexReading α) :
    Prog CacheOp CacheOp.Res TantivyError α :=
  reading.carriedBy fun call => (directory.perform build metaLock call).attempt

end PaimonFtindex.Model
