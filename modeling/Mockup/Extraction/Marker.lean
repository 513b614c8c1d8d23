import Mockup.Component
import Mockup.Text.Blank
import Mockup.Text.Matcher

/-! Marker comments. A marker names a kind, and its section runs to the next marker or to the end.
A later section of a kind replaces an earlier one. -/

namespace Mockup.Extraction

open Text

def markerText : Kind → List Char
  | .logic => "// component.ts".toList
  | .markup => "<!-- component.html -->".toList
  | .stylesheet => "/* component.scss */".toList

/-- A marker; its value is the kind that it names. -/
def marker : Matcher Kind :=
  (((Matcher.literal (markerText .logic) (by decide)).map fun _ => Kind.logic).orElse
    ((Matcher.literal (markerText .markup) (by decide)).map fun _ => Kind.markup)).orElse
      ((Matcher.literal (markerText .stylesheet) (by decide)).map fun _ => Kind.stylesheet)

/-- The sections after the markers, unless all that is left of them is blank. -/
def markers (raw : List Char) : Option Sources :=
  let sources := (marker.segments raw).2.foldl (fun s (k, t) => s.set k (trim t)) ({} : Sources)
  if sources.isEmpty then none else some sources

end Mockup.Extraction
