import Nephio.Go.Slice
import Nephio.Go.Strings
import Nephio.Kptfile.KubeObject

/-!
# The resource list of a package

`krm-functions/lib/kptrl`: the files of a package are read into a list of objects. `T` is the text of
a file.
-/

namespace Nephio

/-- `kioutil.PathAnnotation`: the file that an object was read from. -/
def pathAnnotationKey : String := "internal.config.kubernetes.io/path"

/-- Reading and printing YAML, which is third-party: `parse` reads the documents of a file, `print` is
`String()` of an object. The annotations that the reader sets are left out, but for the path. -/
structure Yaml (V T : Type) where
  parse : T → Except String (List (KubeObject V))
  print : KubeObject V → T
  parse_print : ∀ o, parse (print o) = .ok [o]

/-- A map from paths to texts. -/
structure Files (T : Type) where
  entries : List (String × T) := []
  nodup : (Keyed.keys Prod.fst entries).Nodup := by decide
deriving DecidableEq, Repr

section ResourceList

variable {V T : Type}

/-- `files[path] = text`. -/
def Files.write (files : Files T) (path : String) (text : T) : Files T where
  entries := Keyed.upsert Prod.fst (path, text) files.entries
  nodup := Keyed.nodup_keys_upsert _ files.nodup _

/-- The patterns of `GetResourceList`. -/
def resourcePatterns : List String := ["*.yaml", "*.yml", "Kptfile"]

variable (yaml : Yaml V T)

/-- The objects of a file. -/
def readFile (file : String × T) : Except String (List (KubeObject V)) := do
  let docs ← yaml.parse file.2
  return docs.map fun o => o.setAnnotation pathAnnotationKey file.1

/-- `GetResourceList`. The order of the range over the map is arbitrary. -/
def getResourceList (order : Go.MapOrder Unit String) (resources : Files T) :
    Except String (List (KubeObject V)) := do
  let inputs := (order.range () resources.entries).filter fun file =>
    Go.includeFile file.1 resourcePatterns
  let nodes ← inputs.mapM (readFile yaml)
  return nodes.flatten.foldl (fun items o => upsertObjectToItems o items) []

end ResourceList

end Nephio
