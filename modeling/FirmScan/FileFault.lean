/-!
# Why a file cannot be read

The causes that a run tells apart, in the words of the operating system.
-/

namespace FirmScan

inductive FileFault where
  | notFound
  | notDirectory
  | isDirectory
  | nameTooLong
  | denied
  /-- The bytes of the file are no text. -/
  | notText
  | other (text : String)
  deriving DecidableEq, Repr

def FileFault.message : FileFault → String
  | .notFound => "No such file or directory (os error 2)"
  | .denied => "Permission denied (os error 13)"
  | .notDirectory => "Not a directory (os error 20)"
  | .isDirectory => "Is a directory (os error 21)"
  | .nameTooLong => "File name too long (os error 36)"
  | .notText => "stream did not contain valid UTF-8"
  | .other text => text

end FirmScan
