import ShaderVariants.Text.Basic

/-!
# Why a file operation fails

The causes that the operations of this library meet, with their wording. Causes
that the operating system numbers carry their number.
-/

namespace ShaderVariants

/-- Why an operation on a path failed. -/
inductive IoCause where
  /-- Nothing is there, or something above it is missing. -/
  | notFound
  /-- The place is in use by the system. -/
  | busy
  | alreadyExists
  /-- What should be a directory is a file. -/
  | notADirectory
  /-- What should be a file is a directory. -/
  | isADirectory
  /-- A name or a path is longer than the system allows. -/
  | nameTooLong
  | invalidUtf8
  /-- The path holds a character that no path can hold. -/
  | invalidPath
  | noInputName
  | noOutputName
  /-- Any other cause, in the system's words. -/
  | other (reason : Text)
deriving DecidableEq, Repr

namespace IoCause

/-- A cause that the system numbers. -/
def numbered (words : Text) (number : Nat) : Text :=
  words ++ " (os error " ++ Text.decimal number ++ ")"

/-- The wording of the cause. -/
def message : IoCause → Text
  | notFound => numbered "No such file or directory" 2
  | busy => numbered "Device or resource busy" 16
  | alreadyExists => numbered "File exists" 17
  | notADirectory => numbered "Not a directory" 20
  | isADirectory => numbered "Is a directory" 21
  | nameTooLong => numbered "File name too long" 36
  | invalidUtf8 => "stream did not contain valid UTF-8"
  | invalidPath => "file name contained an unexpected NUL byte"
  | noInputName => "input has no file name"
  | noOutputName => "output path has no file name"
  | other reason => reason

end IoCause

end ShaderVariants
