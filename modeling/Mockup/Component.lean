/-! A component and its three sources. A source that was not found is empty; the formatted text of
a component joins the sources that are there, in a fixed order, by a blank line. -/

namespace Mockup

/-- The kinds of source of a component: its class, its template, its styles. -/
inductive Kind where
  | logic | markup | stylesheet
  deriving DecidableEq, Repr

/-- The fixed order of the kinds. -/
def Kind.order : List Kind := [.logic, .markup, .stylesheet]

/-- A text for each kind of source. -/
structure Sources where
  logic : List Char := []
  markup : List Char := []
  stylesheet : List Char := []
  deriving DecidableEq, Repr

namespace Sources

def get (s : Sources) : Kind → List Char
  | .logic => s.logic
  | .markup => s.markup
  | .stylesheet => s.stylesheet

def set (s : Sources) (k : Kind) (t : List Char) : Sources :=
  match k with
  | .logic => { s with logic := t }
  | .markup => { s with markup := t }
  | .stylesheet => { s with stylesheet := t }

@[simp] theorem get_set (s : Sources) (k j : Kind) (t : List Char) :
    (s.set k t).get j = if j = k then t else s.get j := by
  cases k <;> cases j <;> rfl

@[ext] theorem ext_get {s t : Sources} (h : ∀ k, s.get k = t.get k) : s = t := by
  cases s; cases t
  exact congr (congr (congrArg mk (h .logic)) (h .markup)) (h .stylesheet)

def isEmpty (s : Sources) : Bool := s.logic.isEmpty && s.markup.isEmpty && s.stylesheet.isEmpty

/-- The sources that are not empty, in order, with a blank line between them. -/
def formatted (s : Sources) : List Char :=
  ['\n', '\n'].intercalate ((Kind.order.map s.get).filter (!·.isEmpty))

end Sources

/-- A component as it was found in a completion. -/
structure Component where
  raw : List Char
  sources : Sources

namespace Component

def formatted (c : Component) : List Char := c.sources.formatted

def isEmpty (c : Component) : Bool := c.formatted.isEmpty

end Component

end Mockup
