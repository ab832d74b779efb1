import Mathlib

/-!
# KubeObject.Formatting: copying comments and key order between YAML trees

`SetNestedFieldKeepFormatting` writes a Go value to an object and then copies the formatting of the
old tree to the new one. This is the copy, `deepCopyFormatting`, on the nodes of the YAML parser. A
node is updated in place there; here the updated node is returned.

`C` is what `shallowCopyComments` copies (`Comments` in the source). Nothing reads it. The other
fields of a node (style, anchor, position) are neither read nor written.
-/

namespace Nephio.Formatting

/-- The comments of a `yaml.Node`. -/
structure Comments where
  headComment : String := ""
  lineComment : String := ""
  footComment : String := ""
deriving DecidableEq, Repr

/-- `yaml.Node`, of the kinds that the parser produces. -/
inductive Node (C : Type) where
  | scalarNode (comments : C) (tag value : String)
  | aliasNode (comments : C) (value : String)
  | sequenceNode (comments : C) (tag : String) (content : List (Node C))
  | mappingNode (comments : C) (tag : String) (content : List (Node C))
  | documentNode (comments : C) (content : List (Node C))
deriving Repr

variable {C : Type}

def Node.comments : Node C → C
  | .scalarNode c .. | .aliasNode c .. | .sequenceNode c .. | .mappingNode c ..
  | .documentNode c .. => c

/-- `shallowCopyComments`. -/
def shallowCopyComments (src : Node C) : Node C → Node C
  | .scalarNode _ tag value => .scalarNode src.comments tag value
  | .aliasNode _ value => .aliasNode src.comments value
  | .sequenceNode _ tag content => .sequenceNode src.comments tag content
  | .mappingNode _ tag content => .mappingNode src.comments tag content
  | .documentNode _ content => .documentNode src.comments content

/-- `asString`. -/
def asString : Node C → Option String
  | .scalarNode _ tag value => if tag = "!!str" ∨ tag = "" then some value else none
  | _ => none

/-- `findKey`: the index of the key node in the content of a mapping. -/
def findKey : List (Node C) → String → Option Nat
  | [], _ => none
  | [k], key => if asString k = some key then some 0 else none
  | k :: _ :: rest, key =>
    if asString k = some key then some 0 else (findKey rest key).map (· + 2)

/-- An index past the end of a slice, as the runtime reports it. -/
def indexOutOfRange : String := "index out of range"

mutual

/-- `shouldCopyFormatting`; an error is a panic. -/
def shouldCopyFormatting : Node C → Node C → Except String Bool
  | .scalarNode _ _ value, .scalarNode _ _ value' => .ok (value = value')
  | .mappingNode _ _ content, .mappingNode _ _ content' =>
    if content.length % 2 ≠ 0 ∨ content'.length % 2 ≠ 0 then
      .error "unexpected number of children for YAML map"
    else fieldsMatch content content'
  | .sequenceNode .., .sequenceNode .. => .ok true
  | .aliasNode .., .aliasNode .. => .ok true
  | .documentNode .., .documentNode .. => .ok true
  | _, _ => .ok false

/-- Its loop over the fields of a mapping. -/
def fieldsMatch : List (Node C) → List (Node C) → Except String Bool
  | k :: v :: rest, content =>
    match asString k with
    | none => .ok false
    | some key =>
      match findKey content key with
      | none => .ok false
      | some j =>
        match content[j + 1]? with
        | none => .error indexOutOfRange
        | some v' => do
          if ← shouldCopyFormatting v v' then fieldsMatch rest content else return false
  | _, _ => .ok true

end

/-- `findMatchingItemForFormattingCopy`. -/
def findMatchingItemForFormattingCopy (srcItem : Node C) :
    List (Node C) → Except String (Option Nat)
  | [] => .ok none
  | dstItem :: dstList => do
    if ← shouldCopyFormatting srcItem dstItem then return some 0
    let j ← findMatchingItemForFormattingCopy srcItem dstList
    return j.map (· + 1)

/-- `xs[i], xs[j] = xs[j], xs[i]`. -/
def swap {α : Type} (xs : List α) (i j : Nat) : List α :=
  match xs[i]?, xs[j]? with
  | some x, some y => (xs.set i y).set j x
  | _, _ => xs

/-- The key and the value at `j` and `j + 1` change places with those at the front. -/
def swapToFront {α : Type} (xs : List α) (j : Nat) : List α :=
  if j ≠ 0 then swap (swap xs j 0) (j + 1) 1 else xs

mutual

/-- `deepCopyFormatting`; an error is a panic. -/
def deepCopyFormatting : Node C → Node C → Except String (Node C)
  | .mappingNode c _ content, .mappingNode _ tag content' =>
    if content.length % 2 ≠ 0 ∨ content'.length % 2 ≠ 0 then
      .error "unexpected number of children for a YAML MappingNode"
    else do
      let copied ← copyMapFormatting content content'
      return .mappingNode c tag copied
  | .sequenceNode c _ content, .sequenceNode _ tag content' => do
    let copied ← copyListFormatting content content'
    return .sequenceNode c tag copied
  | .documentNode c [x], .documentNode _ [y] => do
    let copied ← deepCopyFormatting x y
    return .documentNode c [copied]
  | .documentNode c content, .documentNode _ content' => do
    let copied ← copyListFormatting content content'
    return .documentNode c copied
  | .scalarNode c _ _, .scalarNode _ tag value => .ok (.scalarNode c tag value)
  | .aliasNode c _, .aliasNode _ value => .ok (.aliasNode c value)
  | _, dst => .ok dst

/-- The loop of `copyMapFormatting`. The second list is `unorderedPartOfDst`; what the loop has put
in order stands before it. -/
def copyMapFormatting : List (Node C) → List (Node C) → Except String (List (Node C))
  | k :: v :: rest, unorderedPartOfDst =>
    match asString k with
    | none => copyMapFormatting rest unorderedPartOfDst
    | some key =>
      match findKey unorderedPartOfDst key with
      | none => copyMapFormatting rest unorderedPartOfDst
      | some j =>
        match swapToFront unorderedPartOfDst j with
        | k' :: v' :: rest' => do
          let copied ← deepCopyFormatting v v'
          let ordered ← copyMapFormatting rest rest'
          return shallowCopyComments k k' :: copied :: ordered
        | _ => .error indexOutOfRange
  | _, unorderedPartOfDst => .ok unorderedPartOfDst

/-- The loop of `copyListFormatting`. -/
def copyListFormatting : List (Node C) → List (Node C) → Except String (List (Node C))
  | srcItem :: rest, dstList => do
    match ← findMatchingItemForFormattingCopy srcItem dstList with
    | none => copyListFormatting rest dstList
    | some j =>
      match dstList[j]? with
      | none => .error indexOutOfRange
      | some dstItem =>
        let copied ← deepCopyFormatting srcItem dstItem
        copyListFormatting rest (dstList.set j copied)
  | [], dstList => .ok dstList

end

end Nephio.Formatting
