import Crosslink.Unicode.White

/-!
# Text as lists of characters

The library keeps text in `String` fields and works on it as a list of
characters. This module holds the cutting operations that the readers share
beside those of `List`: trimming, cutting at the first separator, and the
two ways of cutting text into lines.
-/

namespace Crosslink.Text

open Unicode (isWhite)

/-! ## Trimming -/

def trimStart (cs : List Char) : List Char := cs.dropWhile isWhite

/-- Drops the characters satisfying `p` at the end. -/
def dropEndWhile (p : Char → Bool) (cs : List Char) : List Char :=
  (cs.reverse.dropWhile p).reverse

def trimEnd (cs : List Char) : List Char := dropEndWhile isWhite cs

/-- Drops white space on both sides. -/
def trim (cs : List Char) : List Char := trimEnd (trimStart cs)

/-- Nothing but white space. -/
def isBlank (cs : List Char) : Bool := cs.all isWhite

/-! ## Cutting at a character -/

/-- What stands before and after the first separator, if there is one. -/
def cutAt (separator : Char) : List Char → Option (List Char × List Char)
  | [] => none
  | c :: cs =>
    if c = separator then some ([], cs)
    else (cutAt separator cs).map fun (front, back) => (c :: front, back)

theorem eq_of_cutAt {separator : Char} {cs front back : List Char}
    (h : cutAt separator cs = some (front, back)) :
    cs = front ++ separator :: back := by
  induction cs generalizing front with
  | nil => simp [cutAt] at h
  | cons c cs ih =>
    rw [cutAt] at h
    split at h
    case isTrue hc => simp_all
    case isFalse =>
      obtain ⟨⟨a, b⟩, hab, heq⟩ := Option.map_eq_some_iff.1 h
      simp only [Prod.mk.injEq] at heq
      obtain ⟨rfl, rfl⟩ := heq
      simp [ih hab]

theorem length_of_cutAt {separator : Char} {cs front back : List Char}
    (h : cutAt separator cs = some (front, back)) :
    cs.length = front.length + back.length + 1 := by
  rw [eq_of_cutAt h, List.length_append, List.length_cons, Nat.add_assoc]

/-- `pattern` stands somewhere in the text. -/
def contains (pattern : List Char) : List Char → Bool
  | [] => pattern.isEmpty
  | c :: cs => pattern.isPrefixOf (c :: cs) || contains pattern cs

/-! ## Lines -/

/-- Lines with their line feeds; a text that ends in a line feed has no
empty last line. -/
def fullLines : List Char → List (List Char)
  | [] => []
  | c :: cs =>
    if c = '\n' then [c] :: fullLines cs
    else
      match fullLines cs with
      | [] => [[c]]
      | line :: rest => (c :: line) :: rest

/-- A line without its line feed, or carriage return and line feed. -/
def chomp : List Char → List Char
  | [] => []
  | ['\n'] => []
  | ['\r', '\n'] => []
  | c :: cs => c :: chomp cs

/-- Lines without their line ends. -/
def lines (cs : List Char) : List (List Char) := (fullLines cs).map chomp

end Crosslink.Text
