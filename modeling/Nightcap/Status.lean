import Mathlib

/-! The status a runtime operation returns. -/
namespace Nightcap

inductive StatusCode
  | ok
  | invalidArgument
  | failedPrecondition
  | unavailable
  | unsupported
  | platformError
deriving DecidableEq

structure Status where
  code : StatusCode := .ok
  message : String := ""
deriving DecidableEq

def Status.isOk (status : Status) : Bool := status.code == .ok

def invalidArgument (message : String) : Status := ⟨.invalidArgument, message⟩

def failedPrecondition (message : String) : Status := ⟨.failedPrecondition, message⟩

def unsupported (message : String) : Status := ⟨.unsupported, message⟩

end Nightcap
