import DocGraph.Text.Blank
import DocGraph.Text.Lines

/-!
Fields in the docstring of a property. A line that begins with `@` opens a field, and the lines
after it belong to that field. The fields for the return value and its type are taken out of the
text; all others stay in it.
-/
namespace DocGraph.Docstring

/-- The lines before the first field, and the lines of each field. -/
structure Sections where
  body : List (List Char)
  fields : List (List (List Char))

def opensField (line : List Char) : Bool := (Text.trimStart line).head? == some '@'

/-- The lines up to the next field, without blanks around them, and the fields from there on. -/
def fieldsOf : List (List Char) → List (List Char) × List (List (List Char))
  | [] => ([], [])
  | line :: rest =>
      let (continued, fields) := fieldsOf rest
      if opensField line then ([], (Text.trimStart line :: continued) :: fields)
      else (Text.trim line :: continued, fields)

def sections (lines : List (List Char)) : Sections :=
  { body := lines.takeWhile fun line => !opensField line
    fields := (fieldsOf (lines.dropWhile fun line => !opensField line)).2 }

/-- What the docstring of a property says. -/
structure PropertyText where
  body : List Char := []
  returns : Option (List Char) := none
  returnType : Option (List Char) := none
  /-- The other fields as they stand. -/
  others : List (List Char) := []

namespace PropertyText

/-- The parts before and behind the first colon. -/
def cutColon? : List Char → Option (List Char × List Char)
  | [] => none
  | c :: rest =>
      if c = ':' then some ([], rest)
      else (cutColon? rest).map fun (before, after) => (c :: before, after)

def isReturn (tag : List Char) : Bool := tag == "return".toList || tag == "returns".toList

def isReturnType (tag : List Char) : Bool := tag == "rtype".toList || tag == "returntype".toList

/-- Adds one field; of two fields for one thing the later counts. -/
def addField (doc : PropertyText) (field : List Char) : PropertyText :=
  match cutColon? field.tail with
  | none => { doc with others := doc.others ++ [field] }
  | some (tag, content) =>
      if isReturn (Text.trim tag) then { doc with returns := some (Text.trim content) }
      else if isReturnType (Text.trim tag) then { doc with returnType := some (Text.trim content) }
      else { doc with others := doc.others ++ [field] }

def parse (text : String) : PropertyText :=
  let sections := sections (Text.lines text.toList)
  (sections.fields.map Text.joinLines).foldl addField
    { body := Text.trim (Text.joinLines sections.body) }

/-- The description, and the other fields behind it. The return field is the description of a
property that has no other. -/
def text (doc : PropertyText) : String :=
  let description :=
    if doc.body.isEmpty then doc.returns.toList else [doc.body]
  "\n\n".intercalate ((description ++ doc.others).map String.ofList)

/-- Only the return field describes the property. -/
def onlyReturns (doc : PropertyText) : Bool := doc.body.isEmpty && doc.returns.isSome

end PropertyText

end DocGraph.Docstring
