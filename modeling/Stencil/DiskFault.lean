/-!
# Faults of reading

Reading what lies at a path can fail because of the path, because of what lies there, or because of
its content.

## Main definitions

* `Stencil.DiskFault`, `Stencil.DiskFault.message`.
-/

namespace Stencil

/-- Why a path gives no text. -/
inductive DiskFault where
  | notFound
  | notADirectory
  | isADirectory
  /-- The path, or a name in it, has too many bytes. -/
  | nameTooLong
  | permissionDenied
  /-- The content is no UTF-8. -/
  | notText
  /-- Any other reason, by its message. -/
  | other (message : String)
  deriving DecidableEq, Repr

/-- The message of a fault. -/
def DiskFault.message : DiskFault → String
  | notFound => "No such file or directory (os error 2)"
  | notADirectory => "Not a directory (os error 20)"
  | isADirectory => "Is a directory (os error 21)"
  | nameTooLong => "File name too long (os error 36)"
  | permissionDenied => "Permission denied (os error 13)"
  | notText => "stream did not contain valid UTF-8"
  | other message => message

end Stencil
