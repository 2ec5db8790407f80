import MutationPipeline.Rehearsal.Shell.Regex
import MutationPipeline.Rehearsal.Shell.Room

/-!
What becomes of words: their values are divided into fields, and fields that are patterns stand for
the names of files.
-/
namespace MutationPipeline.Rehearsal.Shell

/-- What comes of a word: characters, places at which it is divided, and traces of quoted parts,
which make a field even if nothing is in it. -/
inductive Glyph where
  | mark (m : Mark)
  | gap
  | space
  | divider (c : Char)
  | trace
  | nothing
  deriving DecidableEq, Repr

namespace Glyph

def plain (quoted : Bool) (text : Octets) : List Glyph := text.map fun c => .mark ⟨c, quoted⟩

def divided (separators value : Octets) : List Glyph :=
  value.map fun c =>
    if c ∉ separators then .mark ⟨c, false⟩
    else if c ∈ [' ', '\t', '\n'] then .space
    else .divider c

/-- The fields of a word. `begun` is the one that has begun, and `spaced` says that white space has
ended the one before. A sign ends a field, or is an empty one; white space around it adds none. -/
def fields (begun : Option (List Mark)) (spaced : Bool) : List Glyph → List (List Mark)
  | [] => begun.toList
  | .mark m :: rest => fields (some (begun.getD [] ++ [m])) false rest
  | .trace :: rest => fields (some (begun.getD [])) false rest
  | .nothing :: rest => fields begun spaced rest
  | .gap :: rest => begun.toList ++ fields none false rest
  | .space :: rest =>
    match begun with
    | some f => f :: fields none true rest
    | none => fields none spaced rest
  | .divider _ :: rest =>
    match begun, spaced with
    | some f, _ => f :: fields none false rest
    | none, true => fields none false rest
    | none, false => [] :: fields none false rest

def marks (gs : List Glyph) : List Mark :=
  gs.filterMap fun
    | .mark m => some m
    | .gap | .space => some ⟨' ', false⟩
    | .divider c => some ⟨c, false⟩
    | .trace | .nothing => none

def text (gs : List Glyph) : Octets := Mark.chars (marks gs)

end Glyph

namespace Execution

def separators : Execution Octets := return (← valueOf? "IFS".toList).getD [' ', '\t', '\n']

def joint : Execution Octets := return (← separators).take 1

def valueGlyphs (quoted split : Bool) (value : Octets) : Execution (List Glyph) := do
  if quoted then return .trace :: Glyph.plain true value
  else if split then return Glyph.divided (← separators) value
  else return Glyph.plain false value

def valuesGlyphs (quoted split joined : Bool) (values : List Octets) :
    Execution (List Glyph) := do
  if joined && (quoted || !split) then
    valueGlyphs quoted split ((← joint).intercalate values)
  else
    if quoted && values.isEmpty then return [.nothing]
    let each ← values.mapM fun v => valueGlyphs quoted split v
    return List.intercalate [.gap] each

/-! ### Names of files -/

def globRules : Execution Glob.Rules := do
  let r : Room ← get
  return { lists := "extglob" ∈ r.settings, caret := r.dialect = .bash }

def pathsFrom (start : Octets) : List (List Mark) → Execution (List Octets)
  | [] => return [start]
  | name :: rest => do
    let directory := if start = [] then ".".toList else start
    let found ←
      if Glob.isPattern name then
        let path ← resolved (Octets.text directory)
        let r : Room ← get
        let names := if Path.isAbsolute path then [] else r.files.names path
        let all := names.map Octets.ofText
        let glob := Glob.ofWord (← globRules) name
        let hidden := (name.head?.any fun m => m.char = '.') || "dotglob" ∈ r.settings
        pure ((all.filter fun n => glob.fits n && (hidden || n.head? ≠ some '.')).mergeSort
          Octets.inOrder)
      else pure [plainly name]
    let paths ← found.mapM fun n => do
      let path := start ++ n
      if rest = [] then
        let there := n = [] || ((← look path.text) matches .ok _)
        return if there then [path] else []
      else
        match ← look (if path = [] then "/" else path.text) with
        | .ok .directory => pathsFrom (path ++ ['/']) rest
        | _ => return []
    return paths.flatten
where
  plainly (name : List Mark) : Octets :=
    match name with
    | ⟨'\\', false⟩ :: m :: rest => m.char :: plainly rest
    | m :: rest => m.char :: plainly rest
    | [] => []

def namesOf (field : List Mark) : List (List Mark) :=
  field.foldr (fun m names =>
    match names with
    | name :: others => if m.char = '/' then [] :: name :: others else (m :: name) :: others
    | [] => [[m]]) [[]]

def pathsOf (field : List Mark) : Execution (List Octets) := do
  let r : Room ← get
  if 'f' ∈ r.options || !Glob.isPattern field then return [Mark.chars field]
  match ← pathsFrom [] (namesOf field) with
  | [] => return if "nullglob" ∈ r.settings then [] else [Mark.chars field]
  | paths => return paths

def wordsOf (gs : List Glyph) : Execution (List Octets) := do
  if Glyph.nothing ∈ gs && gs.all fun g => g ∈ [.nothing, .trace] then return []
  let each ← (Glyph.fields none false gs).mapM pathsOf
  return each.flatten

end Execution

end MutationPipeline.Rehearsal.Shell
