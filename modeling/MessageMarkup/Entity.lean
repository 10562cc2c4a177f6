/-!
# Messages and their entities

A message is a plain text with entities: annotations that style a span of the text or link it.
Spans are counted in UTF-16 units. A `Style` is what a marker in markup can stand for; a `Kind` is
what an entity can be, that is a style, with the language of preformatted text, or a link.
-/

namespace MessageMarkup

/-! ## Styles and kinds -/

/-- What a marker can stand for. -/
inductive Style where
  | bold
  | italic
  | underline
  | strikethrough
  | spoiler
  | code
  | pre
  deriving DecidableEq, Repr, Inhabited

/-- What an entity does to the span it covers. -/
inductive Kind where
  | bold
  | italic
  | underline
  | strikethrough
  | spoiler
  | code
  /-- Preformatted text in a programming language, which may be empty. -/
  | pre (language : String)
  /-- A link to a url. -/
  | textUrl (url : String)
  /-- A link to a user of the platform. -/
  | mentionName (user : Int64)
  deriving DecidableEq, Repr, Inhabited

namespace Style

/-- All styles, in the order in which documents number them. -/
def all : List Style :=
  [bold, italic, underline, strikethrough, spoiler, code, pre]

/-- The name of a style in documents and settings. -/
def name : Style → String
  | bold => "bold"
  | italic => "italic"
  | underline => "underline"
  | strikethrough => "strikethrough"
  | spoiler => "spoiler"
  | code => "code"
  | pre => "pre"

/-- The style of a name. -/
def ofName? (name : String) : Option Style :=
  all.find? (·.name == name)

/-- The text between the markers of a verbatim style is not searched for markup. -/
def isVerbatim : Style → Bool
  | code | pre => true
  | _ => false

/-- The kind that a pair of markers of this style gives; preformatted text has no language. -/
def kind : Style → Kind
  | bold => .bold
  | italic => .italic
  | underline => .underline
  | strikethrough => .strikethrough
  | spoiler => .spoiler
  | code => .code
  | pre => .pre ""

end Style

namespace Kind

/-- The style of a kind that a marker can stand for. -/
def style? : Kind → Option Style
  | bold => some .bold
  | italic => some .italic
  | underline => some .underline
  | strikethrough => some .strikethrough
  | spoiler => some .spoiler
  | code => some .code
  | pre _ => some .pre
  | textUrl _ | mentionName _ => none

/-- What stands before the number of a user in the url that mentions them. -/
def mentionUrl : String := "tg://user?id="

/-- The url of a kind that is written as a link. A link to nowhere has none. -/
def linkUrl? : Kind → Option String
  | textUrl url => if url.isEmpty then none else some url
  | mentionName user => some (mentionUrl ++ toString user.toInt)
  | _ => none

end Kind

/-! ## Entities -/

/-- An annotation of `length` units of a text from the unit `offset` on. -/
structure Entity where
  /-- The first unit. -/
  offset : Nat
  /-- The number of units. -/
  length : Nat
  /-- What the annotation says. -/
  kind : Kind
  deriving DecidableEq, Repr, Inhabited

namespace Entity

/-- One past the last unit. -/
def stop (e : Entity) : Nat :=
  e.offset + e.length

/-- One past the last unit, or `limit` if that is less. -/
def stopWithin (limit : Nat) (e : Entity) : Nat :=
  min e.stop limit

/-- The entity with `n` units fewer, or none if there are not so many. -/
def shorten (e : Entity) (n : Nat) : Entity :=
  { e with length := e.length - n }

end Entity

/-- A plain text and the entities that annotate it. -/
structure Message where
  /-- The text, without markup. -/
  text : String := ""
  /-- The annotations, in the order in which they were found. -/
  entities : List Entity := []
  deriving DecidableEq, Repr, Inhabited

end MessageMarkup
