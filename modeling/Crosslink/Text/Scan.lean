/-!
# Scanning

A scanner looks at the start of a sequence and gives a piece of it and the
rest, or says that the pieces are at their end. `scanUntil` applies it
again and again.
-/

namespace Crosslink.Text

/-- Takes pieces from the front of a sequence until the scanner reports
their end; gives the pieces and the rest. A scanner that fails, or gives a
piece and takes nothing, makes the sequence unreadable. -/
def scanUntil {σ α : Type} (scan : List σ → Option (Option α × List σ))
    (cs : List σ) : Option (List α × List σ) :=
  match scan cs with
  | none => none
  | some (none, rest) => some ([], rest)
  | some (some piece, rest) =>
    if rest.length < cs.length then
      (scanUntil scan rest).map fun (pieces, rest) => (piece :: pieces, rest)
    else none
termination_by cs.length

end Crosslink.Text
