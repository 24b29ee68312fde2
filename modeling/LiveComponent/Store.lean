import LiveComponent.Failure
import LiveComponent.Table
import LiveComponent.Text.Utf8

namespace LiveComponent

/-!
# Stores

A store keeps documents under keys.  It lies in memory or in a directory with one file for each key;
the name of the file is derived from the key, and a document may not be larger than a limit.
-/

/-- Why a store does not do what it is asked to do. -/
inductive StoreFailure where
  /-- The document of a key is larger than the limit in bytes. -/
  | tooLarge (key : Text) (size limit : Nat)
  /-- The file system refuses. -/
  | system
  /-- The store is out of order. -/
  | outOfOrder
deriving DecidableEq, Repr

namespace StoreFailure

/-- The wording of the failure. -/
def message : StoreFailure → Text
  | tooLarge key size limit =>
    "document for \"".toList ++ key ++ "\" is ".toList ++ Text.ofNat size ++
      " bytes, limit is ".toList ++ Text.ofNat limit
  | system => "the file system refuses"
  | outOfOrder => "disk full"

/-- The failure as one of the pipeline. -/
def toFailure (failure : StoreFailure) : Failure :=
  .cacheIo failure.message

end StoreFailure

/-! ## Directories -/

/-- What stands under a name in a directory. -/
inductive FileContent where
  | document (text : Text)
  /-- A file whose bytes are no text. -/
  | unreadable
  | folder
deriving DecidableEq, Repr

/-- A directory that need not exist. -/
inductive Directory where
  | missing
  /-- Something that is no directory stands on the path to it. -/
  | blocked
  | present (files : Table FileContent)
deriving DecidableEq, Repr

namespace Directory

/-- The files of a directory. -/
def files : Directory → Table FileContent
  | present files => files
  | _ => []

/-- Put something under a name; the directory is made if it is missing. -/
def put (directory : Directory) (name : Text) (content : FileContent) : Directory :=
  present (directory.files.put name content)

end Directory

/-- The largest document of a store by default: five mebibytes. -/
def defaultDocumentLimit : Nat := 5 * 1024 * 1024

namespace FileStore

/-- A character that stands for itself in the name of a file. -/
def isPlain (c : Char) : Bool :=
  c.isAlphanum || c == '-' || c == '_'

/-- The name of the file of a key. -/
def fileName (key : Text) : Text :=
  (key.map fun c => if isPlain c then c else '_') ++ ".json".toList

/-- Whether the name is too long for a file. -/
def isTooLong (name : Text) : Bool :=
  255 < name.length

/-- The document of a key. -/
def get (directory : Directory) (key : Text) : Except StoreFailure (Option Text) :=
  let name := fileName key
  match directory with
  | .missing => .ok none
  | .blocked => .error .system
  | .present files =>
    if isTooLong name then .error .system
    else
      match files.get? name with
      | none => .ok none
      | some (.document text) => .ok (some text)
      | some _ => .error .system

/-- Write the document of a key.  The directory is made first, also if the file cannot be written. -/
def set
    (limit : Nat)
    (directory : Directory)
    (key document : Text) :
    Directory × Except StoreFailure Unit :=
  let name := fileName key
  let size := Text.byteSize document
  if limit < size then
    (directory, .error (.tooLarge key size limit))
  else if directory = .blocked then
    (directory, .error .system)
  else if isTooLong name || directory.files.get? name = some .folder then
    (.present directory.files, .error .system)
  else
    (directory.put name (.document document), .ok ())

/-- Remove the document of a key. -/
def remove (directory : Directory) (key : Text) : Directory × Except StoreFailure Unit :=
  let name := fileName key
  match directory with
  | .missing => (directory, .ok ())
  | .blocked => (directory, .error .system)
  | .present files =>
    if isTooLong name || files.get? name = some .folder then (directory, .error .system)
    else (.present (files.erase name), .ok ())

end FileStore

/-! ## Stores -/

/-- A call of a store. -/
inductive StoreCall where
  | get
  | set
  | remove
deriving DecidableEq, Repr

/-- Where the documents of a store lie. -/
inductive Shelf where
  | memory (documents : Table Text)
  | files (limit : Nat) (directory : Directory)
deriving DecidableEq, Repr

namespace Shelf

/-- The document of a key. -/
def get (shelf : Shelf) (key : Text) : Except StoreFailure (Option Text) :=
  match shelf with
  | memory documents => .ok (documents.get? key)
  | files _ directory => FileStore.get directory key

/-- Write the document of a key. -/
def set (shelf : Shelf) (key document : Text) : Shelf × Except StoreFailure Unit :=
  match shelf with
  | memory documents => (memory (documents.put key document), .ok ())
  | files limit directory =>
    let (directory, result) := FileStore.set limit directory key document
    (files limit directory, result)

/-- Remove the document of a key. -/
def remove (shelf : Shelf) (key : Text) : Shelf × Except StoreFailure Unit :=
  match shelf with
  | memory documents => (memory (documents.erase key), .ok ())
  | files limit directory =>
    let (directory, result) := FileStore.remove directory key
    (files limit directory, result)

end Shelf

/-- A store with the calls that are out of order. -/
structure Store where
  shelf : Shelf
  broken : List StoreCall
deriving DecidableEq, Repr

namespace Store

/-- A store in memory without documents. -/
def empty : Store :=
  ⟨.memory [], []⟩

/-- The document of a key. -/
def get (store : Store) (key : Text) : Except StoreFailure (Option Text) :=
  if store.broken.contains .get then .error .outOfOrder else store.shelf.get key

/-- Write the document of a key. -/
def set (store : Store) (key document : Text) : Store × Except StoreFailure Unit :=
  if store.broken.contains .set then
    (store, .error .outOfOrder)
  else
    let (shelf, result) := store.shelf.set key document
    ({ store with shelf := shelf }, result)

/-- Remove the document of a key. -/
def remove (store : Store) (key : Text) : Store × Except StoreFailure Unit :=
  if store.broken.contains .remove then
    (store, .error .outOfOrder)
  else
    let (shelf, result) := store.shelf.remove key
    ({ store with shelf := shelf }, result)

end Store

end LiveComponent
