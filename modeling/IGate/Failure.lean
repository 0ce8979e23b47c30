/-! What can go wrong outside the program: on a connection, a socket or a file. -/

namespace IGate

inductive IoKind where
  | notFound | permissionDenied | connectionRefused | connectionReset | connectionAborted
  | notConnected | addrInUse | addrNotAvailable | brokenPipe | alreadyExists | invalidInput
  | invalidData | timedOut | writeZero | interrupted | unsupported | unexpectedEof | outOfMemory
  | other
  deriving DecidableEq

namespace IoKind

def all : List IoKind :=
  [notFound, permissionDenied, connectionRefused, connectionReset, connectionAborted,
    notConnected, addrInUse, addrNotAvailable, brokenPipe, alreadyExists, invalidInput,
    invalidData, timedOut, writeZero, interrupted, unsupported, unexpectedEof, outOfMemory, other]

def name : IoKind → String
  | notFound => "NotFound"
  | permissionDenied => "PermissionDenied"
  | connectionRefused => "ConnectionRefused"
  | connectionReset => "ConnectionReset"
  | connectionAborted => "ConnectionAborted"
  | notConnected => "NotConnected"
  | addrInUse => "AddrInUse"
  | addrNotAvailable => "AddrNotAvailable"
  | brokenPipe => "BrokenPipe"
  | alreadyExists => "AlreadyExists"
  | invalidInput => "InvalidInput"
  | invalidData => "InvalidData"
  | timedOut => "TimedOut"
  | writeZero => "WriteZero"
  | interrupted => "Interrupted"
  | unsupported => "Unsupported"
  | unexpectedEof => "UnexpectedEof"
  | outOfMemory => "OutOfMemory"
  | other => "Other"

def ofName? (s : String) : Option IoKind := all.find? (·.name == s)

def text : IoKind → String
  | notFound => "entity not found"
  | permissionDenied => "permission denied"
  | connectionRefused => "connection refused"
  | connectionReset => "connection reset"
  | connectionAborted => "connection aborted"
  | notConnected => "not connected"
  | addrInUse => "address in use"
  | addrNotAvailable => "address not available"
  | brokenPipe => "broken pipe"
  | alreadyExists => "entity already exists"
  | invalidInput => "invalid input parameter"
  | invalidData => "invalid data"
  | timedOut => "timed out"
  | writeZero => "write zero"
  | interrupted => "operation interrupted"
  | unsupported => "unsupported"
  | unexpectedEof => "unexpected end of file"
  | outOfMemory => "out of memory"
  | other => "other error"

end IoKind

inductive SystemFailure where
  | noSuchFile | permissionDenied | fileExists | notADirectory | isADirectory | invalidArgument
  | nameTooLong | messageTooLong | addressInUse | addressNotAvailable | networkUnreachable
  | connectionReset | connectionRefused
  deriving DecidableEq

namespace SystemFailure

def all : List SystemFailure :=
  [noSuchFile, permissionDenied, fileExists, notADirectory, isADirectory, invalidArgument,
    nameTooLong, messageTooLong, addressInUse, addressNotAvailable, networkUnreachable,
    connectionReset, connectionRefused]

def code : SystemFailure → Nat
  | noSuchFile => 2
  | permissionDenied => 13
  | fileExists => 17
  | notADirectory => 20
  | isADirectory => 21
  | invalidArgument => 22
  | nameTooLong => 36
  | messageTooLong => 90
  | addressInUse => 98
  | addressNotAvailable => 99
  | networkUnreachable => 101
  | connectionReset => 104
  | connectionRefused => 111

def ofCode? (n : Nat) : Option SystemFailure := all.find? (·.code == n)

theorem ofCode?_code (f : SystemFailure) : ofCode? f.code = some f := by cases f <;> rfl

def text : SystemFailure → String
  | noSuchFile => "No such file or directory"
  | permissionDenied => "Permission denied"
  | fileExists => "File exists"
  | notADirectory => "Not a directory"
  | isADirectory => "Is a directory"
  | invalidArgument => "Invalid argument"
  | nameTooLong => "File name too long"
  | messageTooLong => "Message too long"
  | addressInUse => "Address already in use"
  | addressNotAvailable => "Cannot assign requested address"
  | networkUnreachable => "Network is unreachable"
  | connectionReset => "Connection reset by peer"
  | connectionRefused => "Connection refused"

end SystemFailure

/-- A failure known by its kind alone, one with a text of its own, or one of the system. -/
inductive IoError where
  | ofKind (kind : IoKind)
  | described (kind : IoKind) (text : String)
  | system (failure : SystemFailure)
  deriving DecidableEq

namespace IoError

def message : IoError → String
  | ofKind k => k.text
  | described _ text => text
  | system f => f.text ++ " (os error " ++ toString f.code ++ ")"

def kind : IoError → IoKind
  | ofKind k => k
  | described k _ => k
  | system .noSuchFile => .notFound
  | system .permissionDenied => .permissionDenied
  | system .fileExists => .alreadyExists
  | system .invalidArgument => .invalidInput
  | system .addressInUse => .addrInUse
  | system .addressNotAvailable => .addrNotAvailable
  | system .connectionReset => .connectionReset
  | system .connectionRefused => .connectionRefused
  | system _ => .other

def closedByPeer : IoError := described .unexpectedEof "connection closed by peer"

/-- No name that is passed to the system holds a zero byte. -/
def zeroByte : IoError := described .invalidInput "file name contained an unexpected NUL byte"

end IoError

end IGate
