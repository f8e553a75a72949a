import ArenaServ.CharacterTexts

/-!
# What a load accepts

The text of an inventory or of spells is read into a list, written again and read again. The
numbers that pass the checks are wider than the fields they are stored in, so some are lost the
second time. The text of a paperdoll is read slot by slot, past the last slot where a part is
discarded just there.
-/

namespace ArenaServ.CharacterTexts

open Util

/-! ## Written and read again -/

section Lists
variable {α : Type} {read : List Char → Option α} {write : α → List Char}

end Lists

/-- A value that is not discarded. -/
def acceptedId (part : List Char) : Bool := decide (0 ≤ toInt part ∧ toInt part ≤ 65535)

/-- What belongs into a slot: the value at that place, if it is there and not discarded. -/
def slotValue (part : Option (List Char)) : Int32 :=
  match part with
  | none => 0
  | some part => if acceptedId part then toInt part else 0

/-- Each of the slots with the value at its place. -/
def slots (parts : List (List Char)) : Vector Int32 15 :=
  Vector.ofFn fun i => slotValue parts[i.val]?

/-- The slots from `i` on are filled with the values of the parts. -/
def fill (list : Vector Int32 15) (i : ℕ) (parts : List (List Char)) : Vector Int32 15 :=
  Vector.ofFn fun j =>
    if i ≤ j.val ∧ (parts[j.val - i]?).any acceptedId then slotValue parts[j.val - i]?
    else list[j.val]

end ArenaServ.CharacterTexts
