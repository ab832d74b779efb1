import Mathlib.Data.List.DropRight
import Mathlib.Data.List.Infix

/-!
# Functions on texts and paths

Go's `strings` and `path/filepath`, as far as they are called. Texts are valid UTF-8, so that
searching characters is searching bytes.
-/

namespace Nephio.Go

/-- `strings.Contains`. -/
def contains (s substr : String) : Bool := decide (substr.toList <:+: s.toList)

/-- `strings.HasPrefix`. -/
def hasPrefix (s start : String) : Bool := decide (start.toList <+: s.toList)

/-- `strings.HasSuffix`. -/
def hasSuffix (s suffix : String) : Bool := decide (suffix.toList <:+ s.toList)

/-- `strings.TrimSuffix`. -/
def trimSuffix (s suffix : String) : String :=
  if hasSuffix s suffix then
    String.ofList (s.toList.take (s.toList.length - suffix.toList.length))
  else s

/-- `strings.TrimPrefix`. -/
def trimPrefix (s start : String) : String :=
  if hasPrefix s start then String.ofList (s.toList.drop start.toList.length) else s

/-- `unicode.IsSpace`. -/
def isSpace (c : Char) : Bool :=
  let n := c.toNat
  9 ≤ n && n ≤ 13 || n = 0x20 || n = 0x85 || n = 0xa0 || n = 0x1680 || 0x2000 ≤ n && n ≤ 0x200a ||
    n = 0x2028 || n = 0x2029 || n = 0x202f || n = 0x205f || n = 0x3000

/-- `strings.TrimSpace`. -/
def trimSpace (s : String) : String :=
  String.ofList ((s.toList.dropWhile isSpace).rdropWhile isSpace)

/-- `strings.LastIndex` of a character. -/
def lastIndex (s : String) (c : Char) : Option Nat :=
  (s.toList.reverse.findIdx? (· = c)).map fun i => s.toList.length - 1 - i

/-- `strings.ReplaceAll` of a character. -/
def replaceAll (s : String) (old : Char) (new : String) : String :=
  String.ofList (s.toList.flatMap fun c => if c = old then new.toList else [c])

/-- `strings.ToLower` of a text in ASCII. -/
def toLower (s : String) : String := String.ofList (s.toList.map Char.toLower)

/-- `filepath.Base`: the last element of a path, without the slashes at its end. -/
def base (path : String) : String :=
  if path = "" then "."
  else
    let stripped := path.toList.rdropWhile (· = '/')
    if stripped = [] then "/" else String.ofList (stripped.rtakeWhile (· ≠ '/'))

/-- `filepath.Match` of a file name with a pattern that has no special character, but for a star at
its start. -/
def matchFile (pattern file : String) : Bool :=
  match pattern.toList with
  | '*' :: suffix => hasSuffix file (String.ofList suffix)
  | _ => pattern = file

/-- `includeFile` of `kptrl`, and `includedFileTypes` of the bootstrap-packages reconciler. -/
def includeFile (path : String) (patterns : List String) : Bool :=
  patterns.any fun pattern => matchFile pattern (base path)

theorem contains_iff {s substr : String} : contains s substr = true ↔ substr.toList <:+: s.toList :=
  decide_eq_true_iff

/-- A text contains what is left of it when a suffix is cut. -/
theorem contains_trimSuffix (s suffix : String) : contains s (trimSuffix s suffix) = true := by
  rw [contains_iff]
  unfold trimSuffix
  split_ifs
  · rw [String.toList_ofList]
    exact (List.take_prefix _ _).isInfix
  · exact List.infix_rfl

end Nephio.Go
