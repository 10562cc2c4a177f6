import MessageMarkup.Document
import MessageMarkup.Format

/-!
# Between markup and documents

The two things that the program does with a text: it turns markup into the document of the message
it stands for, and such a document into markup.
-/

namespace MessageMarkup.Format

/-- The document of some markup, and the records of making it. -/
def renderParsed (f : Format) (pretty : Bool) (markup : String) : String × List Note :=
  let (m, notes) := f.parseNoting markup
  (m.render pretty, notes ++ [.produced name m.entities.length])

/-- The markup of a document, and the records of making it. -/
def renderUnparsed (f : Format) (document : String) : Except Json.Fault (String × List Note) :=
  (Message.ofDocument? document).map f.unparseNoting

end MessageMarkup.Format
