import TableSink.ObjectPath

/-!
# What can go wrong with a store

The causes of a failed request or of a table that cannot be opened, and the sentences that report
them. Causes that belong to the layer below are written as a tag in angle brackets.
-/

namespace TableSink

/-- Why a store does not carry out a request. -/
inductive StoreFault where
  /-- There is no such object. -/
  | notFound
  /-- There is something whose path no object can have. -/
  | invalidPath
  /-- Anything else. -/
  | failed
deriving DecidableEq, Repr

/-- The tag that stands for a failed request in a message. -/
def StoreFault.tag : StoreFault → String
  | .notFound => "<store:NotFound>"
  | .invalidPath => "<store:InvalidPath>"
  | .failed => "<store:Generic>"

/-- Why a file system refuses. -/
inductive FileFault where
  | notFound
  | alreadyExists
  | notADirectory
  | isADirectory
  | directoryNotEmpty
  | invalidName
  | invalidInput
  | invalidData
  | permissionDenied
  | other
deriving DecidableEq, Repr

/-- The tag that stands for a refusal of the file system in a message. -/
def FileFault.tag : FileFault → String
  | .notFound => "<io:NotFound>"
  | .alreadyExists => "<io:AlreadyExists>"
  | .notADirectory => "<io:NotADirectory>"
  | .isADirectory => "<io:IsADirectory>"
  | .directoryNotEmpty => "<io:DirectoryNotEmpty>"
  | .invalidName => "<io:InvalidFilename>"
  | .invalidInput => "<io:InvalidInput>"
  | .invalidData => "<io:InvalidData>"
  | .permissionDenied => "<io:PermissionDenied>"
  | .other => "<io:Other>"

/-- Why storage cannot do what it is asked for. -/
inductive StorageError where
  /-- The text names no place for a table. -/
  | invalidUrl (url : String)
  /-- The store did not carry out a request. -/
  | request (fault : StoreFault)
  /-- A written path cannot be read. -/
  | invalidPath (path : String) (fault : PathFault)
  /-- The directory of the table cannot be made ready. -/
  | prepareRoot (path : String) (fault : FileFault)
deriving DecidableEq, Repr

namespace StorageError

/-- The sentence that reports the error. -/
def message : StorageError → String
  | .invalidUrl url => "Invalid storage URL: " ++ url
  | .request fault => "Storage operation failed: " ++ fault.tag
  | .invalidPath path fault => "Invalid object path '" ++ path ++ "': " ++ fault.tag
  | .prepareRoot path fault => "Failed to prepare table root " ++ path ++ ": " ++ fault.tag

/-- Whether the error says that an object is missing. -/
def isNotFound : StorageError → Bool
  | .request .notFound => true
  | _ => false

end StorageError

end TableSink
