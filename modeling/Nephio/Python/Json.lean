import Mathlib.Data.List.Infix

/-!
# JSON values in Python

What Python's operators do on a decoded JSON value. Each raises where the value is of another type.
-/

namespace Nephio.Python

/-- `sub in s`. -/
def textIn (sub s : String) : Bool := decide (sub.toList <:+: s.toList)

/-- What is raised. -/
inductive Exn where
  | keyError
  | typeError
  | attributeError
  | raised (text : String)
deriving DecidableEq, Repr

inductive Json where
  | null
  | bool (b : Bool)
  | num (n : Int)
  | str (s : String)
  | arr (elems : List Json)
  | obj (members : List (String × Json))
deriving Repr

namespace Json

/-- A member of an object. -/
def get? : Json → String → Option Json
  | obj members, key => members.lookup key
  | _, _ => none

/-- `j[key]`. -/
def getItem : Json → String → Except Exn Json
  | obj members, key =>
    match members.lookup key with
    | some value => .ok value
    | none => .error .keyError
  | _, _ => .error .typeError

/-- `key in j.keys()`. -/
def hasKey : Json → String → Except Exn Bool
  | obj members, key => .ok (members.lookup key).isSome
  | _, _ => .error .attributeError

/-- `len(j)`. -/
def len : Json → Except Exn Nat
  | str s => .ok s.length
  | arr elems => .ok elems.length
  | obj members => .ok members.length
  | _ => .error .typeError

/-- `j[-1]` where `len(j) > 0`. -/
def last : Json → Except Exn Json
  | str s => .ok (str (String.ofList s.toList.getLast?.toList))
  | arr elems =>
    match elems.getLast? with
    | some value => .ok value
    | none => .error .keyError
  | obj _ => .error .keyError
  | _ => .error .typeError

/-- `j is None`. -/
def isNone : Json → Bool
  | null => true
  | _ => false

/-- `j == s`. -/
def isText : Json → String → Bool
  | str s, t => s = t
  | _, _ => false

theorem getItem_eq_ok {j value : Json} {key : String} :
    j.getItem key = .ok value ↔ j.get? key = some value := by
  cases j with
  | obj members =>
    show (match members.lookup key with
      | some found => Except.ok found
      | none => .error Exn.keyError) = .ok value ↔ members.lookup key = some value
    cases members.lookup key with
    | none => exact iff_of_false nofun nofun
    | some found => exact (Except.ok.injEq found value).to_iff.trans (Option.some.injEq _ _).symm.to_iff
  | _ => exact iff_of_false nofun nofun

theorem isText_iff {j : Json} {s : String} : j.isText s = true ↔ j = str s := by
  cases j with
  | str t => exact decide_eq_true_iff.trans (str.injEq t s).symm.to_iff
  | _ => exact iff_of_false nofun nofun

end Json

end Nephio.Python
