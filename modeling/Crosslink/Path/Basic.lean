import Crosslink.Text.Basic

/-!
# Paths in a document tree

Documents live below a virtual root `/`. An `AbsolutePath` names a place
below the root, a `RelativePath` first climbs some levels and then
descends; either may carry a fragment, the anchor inside the addressed
document. A `WrittenPath` is what an author writes: absolute when it
starts with a slash.

Reading normalises: `.` and empty segments disappear and `..` cancels the
name before it. `RelativePath.parse` always succeeds; `AbsolutePath.parse`
refuses text that is not rooted or climbs above the root. `toText` prints
the normal form.
-/

namespace Crosslink

/-- A place below the virtual root, names from the root downward. -/
structure AbsolutePath where
  segments : List String
  fragment : Option String
deriving Repr, DecidableEq, Inhabited

/-- A path that climbs `ascents` levels and then descends. -/
structure RelativePath where
  ascents : Nat
  segments : List String
  fragment : Option String
deriving Repr, DecidableEq, Inhabited

/-- A path as it is written in a document. -/
inductive WrittenPath where
  | absolute (path : AbsolutePath)
  | relative (path : RelativePath)
deriving Repr, DecidableEq

/-- Why a text is not an absolute path. -/
inductive PathError where
  | notRooted (raw : String)
  | aboveRoot (raw : String)
deriving Repr, DecidableEq

/-- Where a relative path leads from a base. -/
inductive PathResolution where
  | inside (path : AbsolutePath)
  | aboveRoot (path : RelativePath)
deriving Repr, DecidableEq

/-! ## Reading -/

/-- The path part and the fragment, which follows the first `#`; an empty
fragment is none. -/
def splitFragment (raw : List Char) : List Char × Option String :=
  match Text.cutAt '#' raw with
  | none => (raw, none)
  | some (path, []) => (path, none)
  | some (path, fragment) => (path, some (String.ofList fragment))

/-- The part of a relative path read so far: levels climbed and names
below them, nearest first. -/
structure Descent where
  ascents : Nat
  names : List String
deriving Repr, DecidableEq

/-- Takes one more segment into account. -/
def Descent.step (d : Descent) (segment : List Char) : Descent :=
  if segment = [] ∨ segment = ['.'] then d
  else if segment = ['.', '.'] then
    match d.names with
    | [] => { d with ascents := d.ascents + 1 }
    | _ :: names => { d with names := names }
  else { d with names := String.ofList segment :: d.names }

def RelativePath.parse (raw : String) : RelativePath :=
  let (path, fragment) := splitFragment raw.toList
  let d := (path.splitOn '/').foldl Descent.step ⟨0, []⟩
  { ascents := d.ascents, segments := d.names.reverse, fragment := fragment }

namespace AbsolutePath

def root : AbsolutePath := ⟨[], none⟩

/-- Number of names below the root. -/
def depth (p : AbsolutePath) : Nat := p.segments.length

/-- Resolves `r` against `base`, taken as a tree. -/
def resolve (base : AbsolutePath) (r : RelativePath) : PathResolution :=
  if base.depth < r.ascents then .aboveRoot r
  else
    .inside
      { segments := base.segments.take (base.depth - r.ascents) ++ r.segments
        fragment := r.fragment }

def parse (raw : String) : Except PathError AbsolutePath :=
  match raw.toList with
  | '/' :: rest =>
    match root.resolve (RelativePath.parse (String.ofList rest)) with
    | .inside path => .ok path
    | .aboveRoot _ => .error (.aboveRoot raw)
  | _ => .error (.notRooted raw)

end AbsolutePath

/-- Reads a path as written: absolute when it starts with a slash. -/
def WrittenPath.parse (raw : String) : Except PathError WrittenPath :=
  match raw.toList with
  | '/' :: _ => (AbsolutePath.parse raw).map .absolute
  | _ => .ok (.relative (RelativePath.parse raw))

namespace PathError

/-- What is wrong with the text. -/
def reason : PathError → String
  | .notRooted _ => "absolute paths start with `/`"
  | .aboveRoot _ => "ascends above the virtual root"

/-- The refused text. -/
def raw : PathError → String
  | .notRooted raw => raw
  | .aboveRoot raw => raw

def message (e : PathError) : String :=
  "invalid path `" ++ e.raw ++ "`: " ++ e.reason

end PathError

/-! ## Printing -/

def fragmentText : Option String → String
  | none => ""
  | some fragment => "#" ++ fragment

def AbsolutePath.toText (p : AbsolutePath) : String :=
  "/" ++ "/".intercalate p.segments ++ fragmentText p.fragment

/-- The relative path as text; a path that says nothing is a dot. -/
def RelativePath.toText (p : RelativePath) : String :=
  let parts := List.replicate p.ascents ".." ++ p.segments
  if parts = [] ∧ p.fragment = none then "."
  else "/".intercalate parts ++ fragmentText p.fragment

def WrittenPath.toText : WrittenPath → String
  | .absolute path => path.toText
  | .relative path => path.toText

def WrittenPath.fragment : WrittenPath → Option String
  | .absolute path => path.fragment
  | .relative path => path.fragment

/-- Whether the path addresses the document it stands in. -/
def RelativePath.isCurrentDocument (p : RelativePath) : Bool :=
  p.ascents == 0 && p.segments.isEmpty

/-! ## Moving about -/

namespace AbsolutePath

/-- Whether this is the root, with or without a fragment. -/
def isRoot (p : AbsolutePath) : Bool := p.segments.isEmpty

/-- The last name; the root has none. -/
def name? (p : AbsolutePath) : Option String := p.segments.getLast?

/-- The same place with another fragment. -/
def withFragment (p : AbsolutePath) (fragment : Option String) : AbsolutePath :=
  { p with fragment := fragment }

def withoutFragment (p : AbsolutePath) : AbsolutePath := p.withFragment none

theorem withoutFragment_eq_self {p : AbsolutePath} (h : p.fragment = none) :
    p.withoutFragment = p := by
  rw [withoutFragment, withFragment, ← h]

/-- The enclosing tree; the root encloses itself. -/
def parent (p : AbsolutePath) : AbsolutePath := ⟨p.segments.dropLast, none⟩

/-- The place called `name` in this tree. -/
def join (p : AbsolutePath) (name : String) : AbsolutePath :=
  ⟨p.segments ++ [name], none⟩

/-- Whether `p` is `ancestor` or lies below it; fragments do not count. -/
def isWithin (p ancestor : AbsolutePath) : Bool :=
  ancestor.segments.isPrefixOf p.segments

/-- The names of `p` below `ancestor`, if `p` lies within it. -/
def segmentsBelow (p ancestor : AbsolutePath) : Option (List String) :=
  if p.isWithin ancestor then some (p.segments.drop ancestor.depth) else none

/-- Resolves a path written inside the document at `document`: a path that
says only a fragment, or nothing, means the document itself. -/
def resolveFromDocument (document : AbsolutePath) (r : RelativePath) :
    PathResolution :=
  if r.isCurrentDocument then .inside (document.withFragment r.fragment)
  else document.parent.resolve r

/-- Length of the longest common start of two lists of names. -/
def commonLength : List String → List String → Nat
  | a :: as, b :: bs => if a = b then commonLength as bs + 1 else 0
  | _, _ => 0

theorem commonLength_le_right (as bs : List String) :
    commonLength as bs ≤ bs.length := by
  fun_induction commonLength as bs with
  | case1 => simpa
  | case2 => exact Nat.zero_le _
  | case3 => exact Nat.zero_le _

theorem take_commonLength (as bs : List String) :
    as.take (commonLength as bs) = bs.take (commonLength as bs) := by
  fun_induction commonLength as bs with
  | case1 => simpa
  | case2 => simp
  | case3 => simp

/-- The starts of `bs` that `as` has too are those up to the common one. -/
theorem take_isPrefixOf_iff {as bs : List String} {n : Nat} (h : n ≤ bs.length) :
    (bs.take n).isPrefixOf as = true ↔ n ≤ commonLength as bs := by
  fun_induction commonLength as bs generalizing n with
  | case1 as b bs ih =>
    cases n with
    | zero => simp
    | succ n => simpa [List.isPrefixOf] using ih (Nat.le_of_succ_le_succ h)
  | case2 a as b bs hne =>
    cases n with
    | zero => simp
    | succ n => simp [List.isPrefixOf, Ne.symm hne]
  | case3 as bs hnone =>
    cases n with
    | zero => simp
    | succ n =>
      cases bs with
      | nil => exact absurd h (Nat.not_succ_le_zero n)
      | cons b bs =>
        cases as with
        | nil => simp
        | cons a as => exact absurd rfl (hnone a as b bs rfl)

/-- The path to write inside `document` in order to reach `target`. -/
def relativeTo (target document : AbsolutePath) : RelativePath :=
  if target.segments = document.segments then ⟨0, [], target.fragment⟩
  else
    let base := document.parent
    let common := commonLength target.segments base.segments
    ⟨base.depth - common, target.segments.drop common, target.fragment⟩

/-! ## Order -/

def compareSegments : List String → List String → Ordering
  | [], [] => .eq
  | [], _ :: _ => .lt
  | _ :: _, [] => .gt
  | a :: as, b :: bs => (compareOfLessAndEq a b).then (compareSegments as bs)

/-- No fragment comes before every fragment. -/
def compareFragments : Option String → Option String → Ordering
  | none, none => .eq
  | none, some _ => .lt
  | some _, none => .gt
  | some a, some b => compareOfLessAndEq a b

/-- By names, then by fragment. -/
def compare (p q : AbsolutePath) : Ordering :=
  (compareSegments p.segments q.segments).then
    (compareFragments p.fragment q.fragment)

end AbsolutePath

end Crosslink
