import LinearLight.Decimal.Digits

/-!
# Errors of the system

What the operating system can answer to a call, and what a writer can.

## Main definitions

- `Errno`: a failure that the operating system reports, with its number and text
- `IoError`: a failure of a writer
-/

namespace LinearLight

/-- A failure that the operating system reports: one of those that the calls here meet, or any
other, by its number and the system's words for it. -/
inductive Errno where
  | operationNotPermitted
  | noSuchEntry
  | interrupted
  | inputOutput
  | badDescriptor
  | tryAgain
  | permissionDenied
  | busy
  | alreadyExists
  | crossDevice
  | notADirectory
  | isADirectory
  | invalidArgument
  | noSpace
  | readOnlyFileSystem
  | brokenPipe
  | nameTooLong
  | tooManyLinks
  | other (number : Nat) (words : String)
deriving DecidableEq

namespace Errno

def code : Errno → Nat
  | operationNotPermitted => 1
  | noSuchEntry => 2
  | interrupted => 4
  | inputOutput => 5
  | badDescriptor => 9
  | tryAgain => 11
  | permissionDenied => 13
  | busy => 16
  | alreadyExists => 17
  | crossDevice => 18
  | notADirectory => 20
  | isADirectory => 21
  | invalidArgument => 22
  | noSpace => 28
  | readOnlyFileSystem => 30
  | brokenPipe => 32
  | nameTooLong => 36
  | tooManyLinks => 40
  | other number _ => number

def description : Errno → String
  | operationNotPermitted => "Operation not permitted"
  | noSuchEntry => "No such file or directory"
  | interrupted => "Interrupted system call"
  | inputOutput => "Input/output error"
  | badDescriptor => "Bad file descriptor"
  | tryAgain => "Resource temporarily unavailable"
  | permissionDenied => "Permission denied"
  | busy => "Device or resource busy"
  | alreadyExists => "File exists"
  | crossDevice => "Invalid cross-device link"
  | notADirectory => "Not a directory"
  | isADirectory => "Is a directory"
  | invalidArgument => "Invalid argument"
  | noSpace => "No space left on device"
  | readOnlyFileSystem => "Read-only file system"
  | brokenPipe => "Broken pipe"
  | nameTooLong => "File name too long"
  | tooManyLinks => "Too many levels of symbolic links"
  | other _ words => words

/-- The words for a failure, and its number. -/
def message (e : Errno) : String :=
  e.description ++ " (os error " ++ Decimal.ofNat e.code ++ ")"

/-- The failures that have names of their own here. -/
def named : List Errno :=
  [operationNotPermitted, noSuchEntry, interrupted, inputOutput, badDescriptor, tryAgain,
    permissionDenied, busy, alreadyExists, crossDevice, notADirectory, isADirectory,
    invalidArgument, noSpace, readOnlyFileSystem, brokenPipe, nameTooLong, tooManyLinks]

def ofCode? (code : Nat) : Option Errno := named.find? (·.code = code)

/-- The failure with a number, and with these words if it has no name here. -/
def ofCode (code : Nat) (words : String) : Errno := (ofCode? code).getD (other code words)

end Errno

/-- The kinds of failure that a writer can report without the system's help. -/
inductive IoErrorKind where
  | notFound
  | permissionDenied
  | brokenPipe
  | alreadyExists
  | wouldBlock
  | invalidInput
  | invalidData
  | timedOut
  | writeZero
  | interrupted
  | unexpectedEof
  | other
deriving DecidableEq

def IoErrorKind.description : IoErrorKind → String
  | notFound => "entity not found"
  | permissionDenied => "permission denied"
  | brokenPipe => "broken pipe"
  | alreadyExists => "entity already exists"
  | wouldBlock => "operation would block"
  | invalidInput => "invalid input parameter"
  | invalidData => "invalid data"
  | timedOut => "timed out"
  | writeZero => "write zero"
  | interrupted => "operation interrupted"
  | unexpectedEof => "unexpected end of file"
  | other => "other error"

/-- A failure of a writer: the system's, one known by its kind, or one with words of its own. -/
inductive IoError where
  | system (errno : Errno)
  | kind (kind : IoErrorKind)
  | custom (kind : IoErrorKind) (text : String)
deriving DecidableEq

namespace IoError

def message : IoError → String
  | system errno => errno.message
  | kind k => k.description
  | custom _ text => text

/-- Whether the call was only interrupted and may be made again. -/
def isInterrupted : IoError → Bool
  | system errno => errno.code = Errno.interrupted.code
  | kind k => k = .interrupted
  | custom k _ => k = .interrupted

/-- The failure to name a file, because its path has a zero byte in it. -/
def zeroByteInPath : IoError := custom .invalidInput "file name contained an unexpected NUL byte"

/-- The failure of a writer that accepts nothing of what it is offered. -/
def nothingAccepted : IoError := custom .writeZero "failed to write whole buffer"

end IoError

end LinearLight
