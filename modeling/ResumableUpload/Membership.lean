/-!
# Kinds of account

An account is ordinary or has one of two memberships. The membership bounds the size of a part.
-/

namespace ResumableUpload

def mebibyte : Nat := 1048576

/-- The membership of an account. -/
inductive Membership
  | normal
  | vip
  | svip
  deriving DecidableEq

namespace Membership

/-- All memberships, the lowest first. -/
def all : List Membership := [normal, vip, svip]

theorem mem_all (m : Membership) : m ∈ all := by cases m <;> decide

def key : Membership → String
  | normal => "normal"
  | vip => "vip"
  | svip => "svip"

def ofKey? (s : String) : Option Membership := all.find? fun m => m.key == s

theorem ofKey?_key (m : Membership) : ofKey? m.key = some m := by cases m <;> decide

def ofNumber : Nat → Membership
  | 2 => svip
  | 1 => vip
  | _ => normal

def maxPartSize : Membership → Nat
  | normal => 4 * mebibyte
  | vip => 16 * mebibyte
  | svip => 32 * mebibyte

end Membership

end ResumableUpload
