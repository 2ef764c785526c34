import ProxySwiss.Memory

/-!
# Destinations, credentials, responses and error codes

The values that the sessions exchange with their users. An error code is a
number in a category; the number zero means no error in every category. The
numbers of the socket errors are those of the target platform.
-/

set_option autoImplicit false

namespace ProxySwiss
open Memory

inductive ErrorCategory where
  | system
  | netdb
  | addrinfo
  | misc
  | proxyBasic
  deriving DecidableEq, Repr

structure ErrorCode where
  value : ℤ
  category : ErrorCategory
  deriving DecidableEq, Repr

namespace ErrorCode

def noError : ErrorCode := ⟨0,.system⟩

/-- The conversion to `bool` that every `if (err)` makes. -/
def failed (err : ErrorCode) : Prop := err.value ≠ 0

instance (err : ErrorCode) : Decidable err.failed :=
  inferInstanceAs (Decidable (err.value ≠ 0))

@[simp] theorem noError_failed : ¬ noError.failed := by decide

def connectionRefused : ErrorCode := ⟨10061,.system⟩
def hostUnreachable : ErrorCode := ⟨10065,.system⟩
def addressFamilyNotSupported : ErrorCode := ⟨10047,.system⟩
def eof : ErrorCode := ⟨2,.misc⟩

end ErrorCode

/-- The errors that a socket may report; each of them is an error. -/
structure Faults where
  may : ErrorCode → Prop
  failed : ∀ e, may e → e.failed

def Faults.any : Faults := ⟨ErrorCode.failed,fun _ h => h⟩
def Faults.none : Faults := ⟨fun _ => False,fun _ h => h.elim⟩

inductive BasicErrors where
  | protocolViolation
  | unsupportedCommand
  | authFailed
  | badAuthMethod
  | credsTooLong
  | hostnameTooLong
  | lineTooLong
  deriving DecidableEq, Repr

def BasicErrors.code : BasicErrors → ℤ
  | .protocolViolation => 1
  | .unsupportedCommand => 2
  | .authFailed => 3
  | .badAuthMethod => 4
  | .credsTooLong => 5
  | .hostnameTooLong => 6
  | .lineTooLong => 7

def makeErrorCode (e : BasicErrors) : ErrorCode := ⟨e.code,.proxyBasic⟩

@[simp] theorem makeErrorCode_failed (e : BasicErrors) : (makeErrorCode e).failed := by
  cases e <;> decide

inductive MajorCode where
  | succeeded
  | hostUnreachable
  | connectionRefused
  | badAddressType
  | unknownError
  deriving DecidableEq, Repr

structure ConnectResponse where
  major : MajorCode := .unknownError
  deriving DecidableEq, Repr

/-- `none` where the source returns false and leaves its argument alone. -/
def ConnectResponse.errorCodeToMajor (err : ErrorCode) : Option MajorCode :=
  if err = .connectionRefused then some .connectionRefused
  else if err = .hostUnreachable then some .hostUnreachable
  else if err = .addressFamilyNotSupported then some .badAddressType
  else none

theorem errorCodeToMajor_refuses (err : ErrorCode) :
    ConnectResponse.errorCodeToMajor err ≠ some .succeeded := by
  unfold ConnectResponse.errorCodeToMajor
  split_ifs <;> simp

/-- An address holds its number in host order, or its sixteen octets. -/
inductive Address where
  | v4 (ulong : UInt32)
  | v6 (bytes : Buffer 16)
  deriving DecidableEq

instance : Inhabited Address := ⟨.v4 0⟩

structure Destination where
  hostname : Bytes := []
  ipAddress : Address := default
  port : UInt16 := 0
  deriving DecidableEq

/-- If so, `ipAddress` is ignored. -/
def Destination.usingHostname (dst : Destination) : Bool := !dst.hostname.isEmpty

structure Credentials where
  username : Bytes := []
  password : Bytes := []
  deriving DecidableEq

def Credentials.empty (creds : Credentials) : Bool :=
  creds.username.isEmpty && creds.password.isEmpty

end ProxySwiss
