import MessageMarkup.Entity
import MessageMarkup.Text.Blank

/-!
# Trimming

`trim` drops the blanks at both ends of a text and fits the entities to what is left: an entity
keeps the part of its span that lies in the text left over, moved with it, and one that keeps
nothing is dropped.
-/

namespace MessageMarkup

/-- The units between the leading and the trailing blanks. -/
def trimUnits (units : List UInt16) : List UInt16 :=
  ((units.dropWhile isBlankUnit).reverse.dropWhile isBlankUnit).reverse

/-- The part of an entity in the `kept` units that follow the first `leading` ones, counted from
there. -/
def Entity.clip? (leading kept : Nat) (e : Entity) : Option Entity :=
  if e.length = 0 ∨ e.stop ≤ leading then none
  else
    let moved : Entity :=
      if leading ≤ e.offset then { e with offset := e.offset - leading }
      else { e with offset := 0, length := e.stop - leading }
    if moved.stop ≤ kept then some moved
    else if kept ≤ moved.offset then none
    else some { moved with length := kept - moved.offset }

/-- A text without the blanks around it, and the entities that still cover some of it. -/
def trim (units : List UInt16) (entities : List Entity) : List UInt16 × List Entity :=
  let leading := (units.takeWhile isBlankUnit).length
  let kept := trimUnits units
  (kept, entities.filterMap (Entity.clip? leading kept.length))

/-- A message without the blanks around it. -/
def Message.trim (m : Message) : Message :=
  let (units, entities) := MessageMarkup.trim (Utf16.ofText m.text) m.entities
  { text := Utf16.toText units, entities }

end MessageMarkup
