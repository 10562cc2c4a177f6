/-!
# JSON values

The values of JSON documents. The members of an object keep their order and their repetitions.
Numbers are 64-bit integers, or literals that stand for anything else.
-/

namespace MessageMarkup

/-- A JSON value. -/
inductive Json where
  | null
  | bool (value : Bool)
  /-- An integer of 64 bits, signed or unsigned. -/
  | integer (value : Int)
  /-- Any other number, as it is written. -/
  | real (literal : List Char)
  | string (value : String)
  | array (items : List Json)
  | object (members : List (String × Json))
  deriving Repr, Inhabited

/-- Why a text is not the document it should be. -/
inductive Json.Fault where
  /-- The text ends too early. -/
  | truncated
  /-- The text is not JSON at some point. -/
  | malformed
  /-- The text is JSON as far as it goes, but not of the form that is asked for. -/
  | mismatched
  deriving DecidableEq, Repr, Inhabited

end MessageMarkup
