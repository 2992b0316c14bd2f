/-!
# Why a file operation fails
-/

namespace RetainedUi

/-- What stood in the way of reading or writing files. -/
inductive FileError where
  | notFound
  | alreadyExists
  | notADirectory
  | isADirectory
  | nameTooLong
  | nulInPath
  | notUtf8
  /-- An image of no size was to be written. -/
  | noPixels
deriving DecidableEq, Repr

/-- The wording of the reason; that of the system where the system gives it. -/
def FileError.message : FileError → String
  | notFound => "No such file or directory (os error 2)"
  | alreadyExists => "File exists (os error 17)"
  | notADirectory => "Not a directory (os error 20)"
  | isADirectory => "Is a directory (os error 21)"
  | nameTooLong => "File name too long (os error 36)"
  | nulInPath => "file name contained an unexpected NUL byte"
  | notUtf8 => "stream did not contain valid UTF-8"
  | noPixels => "image has no pixels"

end RetainedUi
