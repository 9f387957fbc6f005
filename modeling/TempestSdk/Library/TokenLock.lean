import Mathlib.Data.List.Basic

/-!
# A lock kept as a token

A server keeps at most one token.  Setting it succeeds when there is none, and
extending or deleting it only for the token that is there.  Commands travel on
a wire, so a command may be executed long after its sender stopped waiting.
-/

namespace TokenLock

inductive Command (Token : Type*) where
  | set (token : Token)
  | extend (token : Token)
  | delete (token : Token)
deriving DecidableEq

variable {Token : Type*}

def Command.token : Command Token → Token
  | .set token | .extend token | .delete token => token

section

variable [DecidableEq Token]

def execute (kept : Option Token) : Command Token → Option Token × Bool
  | .set token =>
    match kept with
    | none => (some token, true)
    | some other => (some other, false)
  | .extend token => (kept, decide (kept = some token))
  | .delete token => if kept = some token then (none, true) else (kept, false)

variable {kept : Option Token} {token : Token}

@[simp] theorem execute_extend :
    execute kept (.extend token) = (kept, decide (kept = some token)) := rfl

theorem execute_kept {command : Command Token} (before : kept = some token)
    (other : command ≠ .delete token) :
    (execute kept command).1 = some token := by
  subst before
  cases command with
  | set token => rfl
  | extend token => rfl
  | delete asked =>
    have different : token ≠ asked := by
      rintro rfl
      exact other rfl
    simp [execute, different]

theorem execute_set_true (taken : (execute kept (.set token)).2 = true) :
    (execute kept (.set token)).1 = some token := by
  cases kept with
  | none => rfl
  | some other => cases taken

end

end TokenLock
