import KconfigQuery.Text.Literal

/-! # Errors of file access

An access to a file fails for one of a few causes.  The message names the cause by its
conventional code and in words, then the operation, and the path as it was asked for.  A text that
is no path at all is refused in words of its own, and so is a home directory that cannot be told. -/

namespace KconfigQuery

/-- Why an access failed. -/
inductive FileError.Cause where
  | notFound
  | notDirectory
  | isDirectory
  | alreadyExists
  | tooManyLinks
  | nameTooLong
  /-- The answer is longer than what is kept for it. -/
  | noBufferSpace
  /-- The text holds a null character, which no path does. -/
  | nullInPath
deriving DecidableEq

/-- What was tried. -/
inductive FileError.Operation where
  | openFile
  | readFile
  | listDirectory
  | makeDirectory
  | findWorkingDirectory
  | findHomeDirectory
deriving DecidableEq

/-- A failed access. -/
structure FileError where
  cause : FileError.Cause
  operation : FileError.Operation
  path : String
deriving DecidableEq

namespace FileError

/-- The conventional code of a cause. -/
def Cause.code : Cause → String
  | notFound => "ENOENT"
  | notDirectory => "ENOTDIR"
  | isDirectory => "EISDIR"
  | alreadyExists => "EEXIST"
  | tooManyLinks => "ELOOP"
  | nameTooLong => "ENAMETOOLONG"
  | noBufferSpace => "ENOBUFS"
  | nullInPath => "ERR_INVALID_ARG_VALUE"

/-- The cause in words. -/
def Cause.text : Cause → String
  | notFound => "no such file or directory"
  | notDirectory => "not a directory"
  | isDirectory => "illegal operation on a directory"
  | alreadyExists => "file already exists"
  | tooManyLinks => "too many symbolic links encountered"
  | nameTooLong => "name too long"
  | noBufferSpace => "no buffer space available"
  | nullInPath => "must be a string, Uint8Array, or URL without null bytes"

/-- The operation with its path.  Reading happens on a file that is open already, so no path is
    known to it. -/
def Operation.text (operation : Operation) (path : String) : String :=
  match operation with
  | openFile => "open '" ++ path ++ "'"
  | readFile => "read"
  | listDirectory => "scandir '" ++ path ++ "'"
  | makeDirectory => "mkdir '" ++ path ++ "'"
  | findWorkingDirectory => "uv_cwd"
  | findHomeDirectory => "uv_os_homedir"

/-- The kind of an error: the code of its cause, unless the home directory was looked for. -/
def kind (error : FileError) : String :=
  match error.operation with
  | .findHomeDirectory => "ERR_SYSTEM_ERROR"
  | _ => error.cause.code

/-- The message of an error. -/
def message (error : FileError) : String :=
  let operation := error.operation.text error.path
  match error.operation, error.cause with
  | .findHomeDirectory, cause =>
    "A system error occurred: " ++ operation ++ " returned " ++ cause.code ++ " (" ++ cause.text ++
      ")"
  | _, .nullInPath =>
    "The argument 'path' " ++ Cause.nullInPath.text ++ ". Received " ++
      String.ofList (Text.Literal.shown error.path.toList)
  | _, cause => cause.code ++ ": " ++ cause.text ++ ", " ++ operation

end FileError

end KconfigQuery
