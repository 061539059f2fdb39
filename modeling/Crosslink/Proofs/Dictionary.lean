import Crosslink.Config.Basic

/-!
# Names in a dictionary

An insertion changes what is found under its name and nothing else, whatever
the entries (`get?_insert`).
-/

namespace Crosslink

namespace Dictionary

variable {α : Type}

theorem lookup_cons (key name : String) (value : α) (entries : List (String × α)) :
    ((key, value) :: entries).lookup name
      = if name = key then some value else entries.lookup name := by
  rw [List.lookup_cons]
  by_cases hname : name = key
  · rw [if_pos hname, beq_iff_eq.mpr hname]
  · rw [if_neg hname, beq_false_of_ne hname]

theorem lookup_insertEntry (name other : String) (value : α)
    (entries : List (String × α)) :
    (insertEntry name value entries).lookup other
      = if other = name then some value else entries.lookup other := by
  induction entries with
  | nil => exact lookup_cons name other value []
  | cons entry entries ih =>
    obtain ⟨key, old⟩ := entry
    rw [insertEntry]
    split
    · exact lookup_cons name other value _
    · split
      · next hkey =>
        subst hkey
        rw [lookup_cons, lookup_cons]
        split <;> rfl
      · next hkey =>
        rw [lookup_cons, lookup_cons, ih]
        by_cases hother : other = key
        · have hne : other ≠ name := fun h => hkey (h.symm.trans hother)
          rw [if_pos hother, if_neg hne, if_pos hother]
        · rw [if_neg hother, if_neg hother]

theorem get?_insert (d : Dictionary α) (name other : String) (value : α) :
    (d.insert name value).get? other
      = if other = name then some value else d.get? other :=
  lookup_insertEntry name other value d.entries

end Dictionary

end Crosslink
