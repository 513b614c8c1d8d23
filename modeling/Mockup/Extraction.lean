import Mockup.Extraction.Content
import Mockup.Extraction.Marker

/-! Finding the sources of a component in the text that a model wrote. Four strategies are tried in
order, and the first that applies gives the sources. -/

namespace Mockup.Extraction

/-- The ways of finding sources, the more definite first. -/
inductive Strategy where
  | tagged | positional | markers | heuristic
  deriving DecidableEq, Repr

namespace Strategy

def chain : List Strategy := [.tagged, .positional, .markers, .heuristic]

def name : Strategy → String
  | .tagged => "tagged"
  | .positional => "positional"
  | .markers => "markers"
  | .heuristic => "heuristic"

def apply : Strategy → List Char → Option Sources
  | .tagged => Extraction.tagged
  | .positional => Extraction.positional
  | .markers => Extraction.markers
  | .heuristic => Extraction.heuristic

end Strategy

/-- The first strategy that applies, and its sources. -/
def find (raw : List Char) : Option (Strategy × Sources) :=
  Strategy.chain.findSome? fun s => (s.apply raw).map (s, ·)

def strategy (raw : List Char) : Option Strategy := (find raw).map (·.1)

def sources (raw : List Char) : Sources := ((find raw).map (·.2)).getD {}

end Mockup.Extraction

namespace Mockup

/-- The component that a completion holds. -/
def Component.ofCompletion (raw : List Char) : Component := ⟨raw, Extraction.sources raw⟩

end Mockup
