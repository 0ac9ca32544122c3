import EmbeddingServer.Lib.Program
import EmbeddingServer.Models.Manifest
import Mathlib.Data.List.AList
import Mathlib.Logic.Function.Basic

/-!
# The cache on disk

The filesystem primitives the store and the installer perform, over the places a cache
directory is made of. A `Loc` is one of the paths `CacheLayout` computes; what stands there
is an `Entry`, and a directory is a `Tree` of files and directories with an identity of its
own that a rename carries along.

Every primitive may fail before or after it takes effect (`Fault`). What comes from outside
the cache, such as the bytes of an import source, the answers of a server or a request to
cancel, is part of the `Choice` made at each primitive. The directories `models`, `staging`,
`locks`, `transactions` and `quarantine` themselves are always there; creating or syncing one
can fail and changes nothing. Ghost fields record the renames that took effect, what was
staged when a marker was written, and which trees began to be removed next to a marker.
-/

namespace EmbeddingServer

/-- The components of a path below a tree. -/
abbrev RelPath := List String

instance : LawfulBEq RelPath :=
  inferInstanceAs (LawfulBEq (List String))

/-- What `symlink_metadata` tells about a path; `link` stands for symbolic links and other
reparse points. -/
inductive FileKind where
  | dir
  | file
  | link
  | special
  deriving DecidableEq, Repr

/-- Something inside a tree. -/
inductive Node where
  | dir
  | file (bytes : List UInt8)
  | link
  | special
  deriving DecidableEq

/-- The metadata of a node. -/
def Node.kind : Node → FileKind
  | .dir => .dir
  | .file _ => .file
  | .link => .link
  | .special => .special

/-- `metadata.len()`; only the length of a regular file is ever used. -/
def Node.length : Node → Nat
  | .file bytes => bytes.length
  | _ => 0

/-- A directory with everything below it. -/
structure Tree where
  id : Nat
  entries : AList fun _ : RelPath => Node

/-- Trees are compared by the lists behind their maps, so that the comparison can be evaluated. -/
instance : DecidableEq Tree := fun left right =>
  decidable_of_iff (left.id = right.id ∧ left.entries.entries = right.entries.entries) (by
    rw [← AList.ext_iff]
    cases left
    cases right
    simp)

/-- Every path of a tree with its metadata. -/
def Tree.listing (tree : Tree) : List (RelPath × FileKind) :=
  tree.entries.entries.map fun item => (item.1, item.2.kind)

/-- What stands at a location. -/
inductive Entry where
  | dir (tree : Tree)
  | file
  | link
  | special
  deriving DecidableEq

/-- The metadata of an entry. -/
def Entry.kind : Entry → FileKind
  | .dir _ => .dir
  | .file => .file
  | .link => .link
  | .special => .special

/-- The paths of `CacheLayout` that hold trees: `models/<key>`, `staging/<key>.partial`,
`transactions/<key>.previous`, `transactions/<key>.deleted` and
`quarantine/<key>.<pid>.<sequence>.invalid`. -/
inductive Loc where
  | models (key : String)
  | staging (key : String)
  | backup (key : String)
  | tombstone (key : String)
  | quarantine (key : String) (pid sequence : Nat)
  deriving DecidableEq, Repr

/-- The cache key a location belongs to. -/
def Loc.key : Loc → String
  | .models key => key
  | .staging key => key
  | .backup key => key
  | .tombstone key => key
  | .quarantine key _ _ => key

/-- The directories of the layout. -/
inductive Root where
  | cache
  | models
  | staging
  | locks
  | transactions
  | quarantine
  deriving DecidableEq, Repr

/-- The directory a location is in. -/
def Loc.parent : Loc → Root
  | .models _ => .models
  | .staging _ => .staging
  | .backup _ => .transactions
  | .tombstone _ => .transactions
  | .quarantine .. => .quarantine

/-- An open handle of a lock file that holds the advisory lock. The owner is the call that opened
it. -/
structure Lock where
  handle : Nat
  owner : Nat
  key : String
  exclusive : Bool
  deriving DecidableEq, Repr

/-- The cache of one store. -/
structure Cache where
  /-- What stands at each location. -/
  dirs : AList fun _ : Loc => Entry
  /-- `transactions/<key>.repair`. -/
  marker : String → Option FileKind
  /-- Files and directories flushed since they last changed. -/
  durable : List (Loc × RelPath)
  locks : List Lock
  /-- The next handle of each lock file. -/
  nextHandle : String → Nat
  nextTree : Nat
  /-- Ghost: what was staged when the marker of a key was last written. -/
  prepared : String → Option Entry
  /-- Ghost: the renames that took effect, newest first. -/
  renames : List (Loc × Loc)
  /-- Ghost: the trees whose recursive removal began while the marker of their key existed. -/
  markedRemovals : List Loc

namespace Cache

/-- A cache with nothing in it. -/
def empty : Cache :=
  { dirs := ∅
    marker := fun _ => none
    durable := []
    locks := []
    nextHandle := fun _ => 0
    nextTree := 0
    prepared := fun _ => none
    renames := []
    markedRemovals := [] }

/-- What stands at a location. -/
def entry (s : Cache) (loc : Loc) : Option Entry :=
  s.dirs.lookup loc

/-- The tree at a location. -/
def tree (s : Cache) (loc : Loc) : Option Tree :=
  match s.entry loc with
  | some (.dir tree) => some tree
  | _ => none

/-- What stands below a location. -/
def node (s : Cache) (loc : Loc) (path : RelPath) : Option Node :=
  (s.tree loc).bind fun tree => if path = [] then some .dir else tree.entries.lookup path

/-- Replace the tree at a location. -/
def setTree (s : Cache) (loc : Loc) (tree : Tree) : Cache :=
  { s with dirs := s.dirs.insert loc (.dir tree) }

/-- Forget that a path and the directory it is in were flushed. -/
def touch (s : Cache) (loc : Loc) (path : RelPath) : Cache :=
  { s with durable := s.durable.filter fun flushed =>
      flushed ≠ (loc, path) ∧ flushed ≠ (loc, path.dropLast) }

/-- Put a node into the tree at a location. -/
def setNode (s : Cache) (loc : Loc) (tree : Tree) (path : RelPath) (node : Node) : Cache :=
  (s.setTree loc { tree with entries := tree.entries.insert path node }).touch loc path

/-- Remove a node from the tree at a location. -/
def eraseNode (s : Cache) (loc : Loc) (tree : Tree) (path : RelPath) : Cache :=
  (s.setTree loc { tree with entries := tree.entries.erase path }).touch loc path

/-- A rename may replace an empty directory by a directory and a leaf by a leaf. -/
def replaceable : Option Entry → Entry → Bool
  | none, _ => true
  | some (.dir old), .dir _ => old.entries.keys.isEmpty
  | some (.dir _), _ => false
  | some _, .dir _ => false
  | some _, _ => true

/-- The flushed paths of `src` are those of `dst` from now on. -/
def moveDurable (durable : List (Loc × RelPath)) (src dst : Loc) : List (Loc × RelPath) :=
  (durable.filter fun flushed => flushed.1 ≠ src ∧ flushed.1 ≠ dst) ++
    (durable.filter fun flushed => flushed.1 = src).map fun flushed => (dst, flushed.2)

/-- An atomic rename, if there is something to move and it may go there. -/
def rename (s : Cache) (src dst : Loc) : Option Cache :=
  match s.entry src with
  | none => none
  | some moved =>
      if replaceable (s.entry dst) moved then
        some { s with
          dirs := (s.dirs.erase src).insert dst moved
          durable := moveDurable s.durable src dst
          renames := (src, dst) :: s.renames }
      else none

/-- The lock can be granted next to the handles that are open. -/
def lockable (s : Cache) (key : String) (exclusive : Bool) : Bool :=
  s.locks.all fun lock => lock.key ≠ key || (!exclusive && !lock.exclusive)

/-- The open handles without one of a lock file. -/
def release (s : Cache) (key : String) (handle : Nat) : Cache :=
  { s with locks := s.locks.filter fun lock => lock.key ≠ key ∨ lock.handle ≠ handle }

/-- The first free quarantine name from a sequence number on. Only finitely many names are
taken, so the loop of `quarantine_backup_with_operations` ends. -/
def freeSequence (s : Cache) (key : String) (pid start : Nat) : Option Nat :=
  ((List.range (s.dirs.keys.length + 1)).map (start + ·)).find?
    fun sequence => (s.entry (.quarantine key pid sequence)).isNone

end Cache

/-- What a server answers to one request, before the body. -/
structure Response where
  status : Nat
  /-- The `Location` header; the inner option is `to_str`. -/
  location : Option (Option String)
  /-- The `Content-Length` header when it parses as a `u64`. -/
  contentLength : Option Nat
  deriving DecidableEq, Repr

/-- `PromotionPhase` and `DeletionPhase`, at which an observer may stop the code. -/
inductive Phase where
  | markerDurable
  | previousDisplaced
  | replacementPromoted
  | repairReconciled
  | tombstoneDurable
  | tombstoneRemoved
  deriving DecidableEq, Repr

/-- The primitives. -/
inductive FsOp where
  | observe (phase : Phase)
  | metadata (loc : Loc)
  | markerMetadata (key : String)
  | createRoot (root : Root)
  | syncRoot (root : Root)
  | syncDir (loc : Loc)
  | syncEntry (loc : Loc) (path : RelPath)
  | rename (src dst : Loc)
  | createMarker (key : String)
  | syncMarker (key : String)
  | removeMarker (key : String)
  | quarantineCandidate (key : String) (pid : Nat)
  | readTree (loc : Loc)
  /-- The listing with which `fs::remove_dir_all` begins. -/
  | listRemoval (loc : Loc)
  | unlink (loc : Loc) (path : RelPath)
  | removeDir (loc : Loc)
  | createDir (loc : Loc)
  | makeDir (loc : Loc) (path : RelPath)
  | openDir (loc : Loc) (path : RelPath)
  | createFile (loc : Loc) (path : RelPath)
  | append (loc : Loc) (path : RelPath) (bytes : List UInt8)
  | fileMetadata (loc : Loc) (path : RelPath)
  | openFile (loc : Loc) (path : RelPath)
  | read (loc : Loc) (path : RelPath) (offset limit : Nat)
  | openLock (key : String)
  | tryLock (owner : Nat) (key : String) (exclusive : Bool)
  | unlock (key : String) (handle : Nat)
  /-- `cancelled()`. -/
  | poll
  /-- A check of the import source by `validate_import_source` and its companions. -/
  | inspectSource (path : RelPath)
  /-- Open a file of the import source; answers `is_file` and the length. -/
  | openSource (path : RelPath)
  | readSource (path : RelPath)
  /-- `InstallCommitGate::begin_commit`. -/
  | beginCommit
  | httpGet (url : Url)
  | httpChunk

/-- The value a primitive returns when it succeeds. -/
@[reducible]
def FsOp.Value : FsOp → Type
  | .metadata _ => Option FileKind
  | .markerMetadata _ => Option FileKind
  | .quarantineCandidate .. => Nat
  | .readTree _ => List (RelPath × FileKind)
  | .listRemoval _ => List (RelPath × FileKind)
  | .fileMetadata .. => Option (FileKind × Nat)
  | .read .. => List UInt8
  | .tryLock .. => Nat
  | .poll => Bool
  | .inspectSource _ => Option Error
  | .openSource _ => Bool × Nat
  | .readSource _ => List UInt8
  | .beginCommit => Bool
  | .httpGet _ => Except HttpFailureKind Response
  | .httpChunk => Except HttpFailureKind (Option (List UInt8))
  | _ => Unit

/-- A primitive answers with its value or an error. -/
abbrev FsOp.Reply (op : FsOp) : Type := Except IoError op.Value

/-- How a primitive fails. -/
inductive Fault where
  | none
  | before
  | after
  deriving DecidableEq, Repr

/-- What is decided from outside at a primitive. -/
structure Choice where
  fault : Fault := .none
  /-- The answer of `poll`, of `is_file` of a source and of the commit gate. -/
  flag : Bool := false
  /-- The length of a source, how much of the buffer a read fills, and the value of
  `QUARANTINE_SEQUENCE`, which every key and thread of the process advances. -/
  amount : Nat := 0
  bytes : List UInt8 := []
  /-- What an inspection of the import source finds wrong. -/
  objection : Option Error := Option.none
  response : Except HttpFailureKind Response := .error .other
  chunk : Except HttpFailureKind (Option (List UInt8)) := .ok Option.none

namespace Cache

/-- The parent directory of a path below a location exists. -/
def parentExists (s : Cache) (loc : Loc) (path : RelPath) : Bool :=
  s.node loc path.dropLast = some .dir

/-- A primitive that succeeds without any effect if the condition holds. -/
def require (s : Cache) (condition : Bool) (error : IoError) : Except IoError Unit × Cache :=
  if condition then (.ok (), s) else (.error error, s)

/-- A new node at a free path below an existing directory. -/
def addNode (s : Cache) (loc : Loc) (path : RelPath) (node : Node) :
    Except IoError Unit × Cache :=
  match s.tree loc with
  | none => (.error .notFound, s)
  | some tree =>
      if (s.node loc path).isSome then (.error .alreadyExists, s)
      else if s.parentExists loc path then (.ok (), s.setNode loc tree path node)
      else (.error .notFound, s)

/-- The effect and the answer of a primitive that does not fail from outside. -/
def perform (s : Cache) (choice : Choice) : (op : FsOp) → op.Reply × Cache
  | .observe _ => (.ok (), s)
  | .metadata loc => (.ok ((s.entry loc).map Entry.kind), s)
  | .markerMetadata key => (.ok (s.marker key), s)
  | .createRoot _ => (.ok (), s)
  | .syncRoot _ => (.ok (), s)
  | .syncDir loc =>
      if (s.entry loc).isSome then (.ok (), { s with durable := (loc, []) :: s.durable })
      else (.error .notFound, s)
  | .syncEntry loc path =>
      if (s.node loc path).isSome then (.ok (), { s with durable := (loc, path) :: s.durable })
      else (.error .notFound, s)
  | .rename src dst =>
      match s.rename src dst with
      | some s' => (.ok (), s')
      | none => (.error .other, s)
  | .createMarker key =>
      if (s.marker key).isNone then
        (.ok (), { s with
          marker := Function.update s.marker key (some .file)
          prepared := Function.update s.prepared key (s.entry (.staging key)) })
      else (.error .alreadyExists, s)
  | .syncMarker key => s.require (s.marker key).isSome .notFound
  | .removeMarker key =>
      match s.marker key with
      | none => (.error .notFound, s)
      | some .dir => (.error .other, s)
      | some _ => (.ok (), { s with marker := Function.update s.marker key none })
  | .quarantineCandidate key pid =>
      match s.freeSequence key pid choice.amount with
      | some sequence => (.ok sequence, s)
      | none => (.error .other, s)
  | .readTree loc =>
      match s.tree loc with
      | some tree => (.ok tree.listing, s)
      | none => (.error .notFound, s)
  | .listRemoval loc =>
      match s.tree loc with
      | some tree =>
          (.ok tree.listing,
            if (s.marker loc.key).isSome then
              { s with markedRemovals := loc :: s.markedRemovals }
            else s)
      | none => (.error .notFound, s)
  | .unlink loc path =>
      match s.tree loc with
      | none => (.error .notFound, s)
      | some tree =>
          if path ∉ tree.entries.keys then (.error .notFound, s)
          else if tree.entries.keys.any fun other => path.isPrefixOf other && other ≠ path then
            (.error .other, s)
          else (.ok (), s.eraseNode loc tree path)
  | .removeDir loc =>
      match s.tree loc with
      | none => (.error .notFound, s)
      | some tree =>
          if tree.entries.keys.isEmpty then
            (.ok (), { s with
              dirs := s.dirs.erase loc
              durable := s.durable.filter fun flushed => flushed.1 ≠ loc })
          else (.error .other, s)
  | .createDir loc =>
      match s.entry loc with
      | none =>
          (.ok (), { s with
            dirs := s.dirs.insert loc (.dir ⟨s.nextTree, ∅⟩)
            durable := s.durable.filter fun flushed => flushed.1 ≠ loc
            nextTree := s.nextTree + 1 })
      | some (.dir _) => (.ok (), s)
      | some _ => (.error .alreadyExists, s)
  | .makeDir loc path => s.addNode loc path .dir
  | .openDir loc path =>
      match s.node loc path with
      | some .dir => (.ok (), s)
      | none => (.error .notFound, s)
      | some _ => (.error .other, s)
  | .createFile loc path => s.addNode loc path (.file [])
  | .append loc path bytes =>
      match s.tree loc, s.node loc path with
      | some tree, some (.file content) =>
          (.ok (), s.setNode loc tree path (.file (content ++ bytes)))
      | _, _ => (.error .other, s)
  | .fileMetadata loc path =>
      (.ok ((s.node loc path).map fun node => (node.kind, node.length)), s)
  | .openFile loc path =>
      match s.node loc path with
      | none => (.error .notFound, s)
      | some .link => (.error .other, s)
      | some _ => (.ok (), s)
  | .read loc path offset limit =>
      match s.node loc path with
      | some (.file content) =>
          (.ok ((content.drop offset).take (min limit (choice.amount + 1))), s)
      | _ => (.error .other, s)
  | .openLock _ => (.ok (), s)
  | .tryLock owner key exclusive =>
      if s.lockable key exclusive then
        (.ok (s.nextHandle key), { s with
          locks := ⟨s.nextHandle key, owner, key, exclusive⟩ :: s.locks
          nextHandle := Function.update s.nextHandle key (s.nextHandle key + 1) })
      else (.error .wouldBlock, s)
  | .unlock key handle => (.ok (), s.release key handle)
  | .poll => (.ok choice.flag, s)
  | .inspectSource _ => (.ok choice.objection, s)
  | .openSource _ => (.ok (choice.flag, choice.amount), s)
  | .readSource _ => (.ok choice.bytes, s)
  | .beginCommit => (.ok choice.flag, s)
  | .httpGet _ => (.ok choice.response, s)
  | .httpChunk => (.ok choice.chunk, s)

end Cache

/-- Dropping a handle, polling a flag and crossing the commit gate cannot fail. -/
def FsOp.infallible : FsOp → Bool
  | .unlock .. => true
  | .poll => true
  | .beginCommit => true
  | _ => false

/-- A failed attempt to lock drops the handle, so nothing is left of it. -/
def FsOp.transient : FsOp → Bool
  | .tryLock .. => true
  | _ => false

/-- A primitive under a choice: it may fail before or after its effect. -/
def respond (choice : Choice) (s : Cache) (op : FsOp) : op.Reply × Cache :=
  match choice.fault, op.infallible with
  | .before, false => (.error .other, s)
  | .after, false => (.error .other, if op.transient then s else (s.perform choice op).2)
  | _, _ => s.perform choice op

/-- The store's code: primitives, with errors that end it. -/
abbrev StoreM := ExceptT Error (Program FsOp FsOp.Reply)

/-- Perform a primitive; its error becomes `Error::Io`. -/
def fs (op : FsOp) : StoreM op.Value :=
  ExceptT.mk do
    let reply ← Program.primitive op
    pure (reply.mapError Error.io)

/-- Look at a result instead of returning its error. -/
def attempt {α : Type} (body : StoreM α) : StoreM (Except Error α) :=
  ExceptT.mk do
    let result ← body.run
    pure (.ok result)

/-- The `?` operator on a value that is already there. -/
def lift {α : Type} (result : Except Error α) : StoreM α :=
  ExceptT.mk (pure result)

/-- `return Err(Error::Invalid(message))`. -/
def invalid {α : Type} (message : String) : StoreM α :=
  throw (.invalid message)

/-- `if condition { return Err(error) }`. -/
def failIf (condition : Prop) [Decidable condition] (error : Error) : StoreM Unit :=
  if condition then throw error else pure ()

/-- `map_err(|_| Error::Invalid(message))`. -/
def orInvalid {α : Type} (message : String) (body : StoreM α) : StoreM α := do
  match ← attempt body with
  | .ok value => pure value
  | .error _ => invalid message

/-- `fs::symlink_metadata` of a location, where a missing file is an error. -/
def symlinkMetadata (loc : Loc) : StoreM FileKind := do
  match ← fs (.metadata loc) with
  | some kind => pure kind
  | none => throw (.io .notFound)

/-- `fs::symlink_metadata` of a path below a location: kind and length. -/
def pathMetadata (loc : Loc) (path : RelPath) : StoreM (FileKind × Nat) := do
  match ← fs (.fileMetadata loc path) with
  | some metadata => pure metadata
  | none => throw (.io .notFound)

end EmbeddingServer
