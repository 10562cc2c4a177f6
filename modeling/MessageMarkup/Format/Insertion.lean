import MessageMarkup.Delimiters
import MessageMarkup.Integer64
import MessageMarkup.Note

/-!
# Writing markup

Every entity that markup can express contributes two insertions to the text, one where it starts
and one where it stops. Insertions are ordered by position; at one position, what closes comes
before what opens, a later entity closes before an earlier one, and an earlier one opens before a
later one. They are made from the end of the text backwards, so that a position still means what it
meant when it was computed. Nothing is inserted between the halves of a surrogate pair.
-/

namespace MessageMarkup

/-- Markup to be inserted into a text. -/
structure Insertion where
  /-- Where it goes. -/
  position : Nat
  /-- What orders the insertions at one position: the number of the entity, negative if the markup
  closes it. -/
  tag : Int
  /-- The units to be inserted. -/
  units : List UInt16
  deriving DecidableEq, Repr, Inhabited

namespace Insertion

/-- The order in which insertions stand in the text. -/
def le (a b : Insertion) : Bool :=
  a.position < b.position || (a.position == b.position && a.tag ≤ b.tag)

/-- The first position at `i` or after it that does not split a surrogate pair. -/
def settle (units : List UInt16) (i : Nat) : Nat :=
  if h : Utf16.splitsPair units i ∧ i < units.length then settle units (i + 1) else i
  termination_by units.length - i

/-- Some units with an insertion made. One behind the end is made at the end. -/
def insertInto (units : List UInt16) (i : Insertion) : List UInt16 :=
  let position := settle units (min i.position units.length)
  units.take position ++ i.units ++ units.drop position

/-- Insertions into some units, given in the order in which they stand in the text. -/
def insertAll (units : List UInt16) (insertions : List Insertion) : List UInt16 :=
  insertions.foldr (fun i units => insertInto units i) units

end Insertion

/-- What is written before and after the span of an entity, if it can be written at all. -/
def Delimiters.around? (table : Delimiters) (kind : Kind) : Option (String × String) :=
  match kind.style?.bind table.markerFor? with
  | some marker => some (marker, marker)
  | none => kind.linkUrl?.map fun url => ("[", "](" ++ url ++ ")")

/-- The insertions of one entity of a list; `index` is its number there. An entity that reaches past
`limit` stops there. -/
def Entity.insertions (table : Delimiters) (limit : Nat) (e : Entity) (index : Nat) :
    List Insertion :=
  match table.around? e.kind with
  | some (before, after) =>
    [⟨e.offset, index, Utf16.ofText before⟩, ⟨e.stopWithin limit, -index, Utf16.ofText after⟩]
  | none => []

/-- The insertions of a list of entities, as they stand in the text. -/
def insertionsOf (table : Delimiters) (limit : Nat) (entities : List Entity) : List Insertion :=
  (entities.zipIdx.flatMap fun (e, index) => e.insertions table limit index).mergeSort Insertion.le

/-- The greatest position for insertions into some units. Positions have 64 bits, and only a longer
text has more of them. -/
def Insertion.limit (units : List UInt16) : Nat :=
  max Integer64.maxUnsigned units.length

/-- The markup of a message, and the records of writing it. Without delimiters a text is its own
markup. -/
def unparseWith (table : Delimiters) (m : Message) : String × List Note :=
  if m.text.isEmpty || m.entities.isEmpty || table.isEmpty then (m.text, [])
  else
    let units := Utf16.ofText m.text
    let units := Insertion.insertAll units (insertionsOf table (Insertion.limit units) m.entities)
    (Utf16.toText units, [.unparsed m.entities.length])

end MessageMarkup
