import Mathlib.Data.List.Infix

/-! # Errors of the Controller

The exceptions a Controller function can end with, as far as some handler tells
them apart. The texts are those of the source. -/

namespace HollysysController

inductive DependencyKind where
  | transient | rateLimited | auth | contract
  deriving DecidableEq, Repr

def DependencyKind.errorClass : DependencyKind → String
  | .transient => "dependency_transient"
  | .rateLimited => "dependency_rate_limited"
  | .auth => "dependency_auth"
  | .contract => "dependency_contract"

structure ErrorContext where
  dependency : String
  errorCode : Option String := none
  retryAfterSeconds : Option Nat := none
  deriving DecidableEq, Repr

inductive ControllerError where
  | valueError (text : String)
  | checkedHeadConflict (text : String)
  | runtimeError (text : String)
  | permissionError (text : String)
  | dependency (kind : DependencyKind) (text : String) (context : ErrorContext)
  | runPolicy (text : String)
  | superseded (text : String)
  | fatal (text : String)
  deriving DecidableEq, Repr

namespace ControllerError

/-- `str(exc)`. -/
def text : ControllerError → String
  | valueError t | checkedHeadConflict t | runtimeError t | permissionError t
  | dependency _ t _ | runPolicy t | superseded t | fatal t => t

/-- `type(exc).__name__`. -/
def className : ControllerError → String
  | valueError _ => "ValueError"
  | checkedHeadConflict _ => "CheckedHeadConflict"
  | runtimeError _ => "RuntimeError"
  | permissionError _ => "PermissionError"
  | dependency .transient _ _ => "DependencyTransientError"
  | dependency .rateLimited _ _ => "DependencyRateLimitedError"
  | dependency .auth _ _ => "DependencyAuthError"
  | dependency .contract _ _ => "DependencyContractError"
  | runPolicy _ => "RunPolicyError"
  | superseded _ => "ReconcileSuperseded"
  | fatal _ => "ControllerFatalError"

/-- `except ValueError`: `CheckedHeadConflict` is one, the `ControllerError`
classes are not. -/
def isValueError : ControllerError → Bool
  | valueError _ | checkedHeadConflict _ => true
  | _ => false

def isSuperseded : ControllerError → Bool
  | superseded _ => true
  | _ => false

def isFatal : ControllerError → Bool
  | fatal _ => true
  | _ => false

def isDependency : ControllerError → Bool
  | dependency .. => true
  | _ => false

def isDependencyContract : ControllerError → Bool
  | dependency .contract _ _ => true
  | _ => false

end ControllerError

/-- Python truth of an optional string. -/
def truthy (s : Option String) : Bool := s.any (· != "")

/-- `thread_id or None`. -/
def threadOf (thread : Option String) : Option String := thread.filter (· != "")

/-- The first `n` characters, `text[:n]`. -/
def clip (n : Nat) (text : String) : String := String.ofList (text.toList.take n)

/-- `needle in text`. -/
def hasText (needle text : String) : Bool := decide (needle.toList <:+: text.toList)

end HollysysController
