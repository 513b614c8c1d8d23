import Mockup.Component
import Mockup.Text.Blank
import Mockup.Text.Matcher

/-! Fenced blocks. A block opens with three backticks, a label and the end of the line, and runs to
the next three backticks. Blocks labelled for a kind are looked for kind by kind; without any, the
first three blocks are taken in order, whatever their labels. -/

namespace Mockup.Extraction

open Text

def fence : List Char := ['\x60', '\x60', '\x60']

/-- The labels of the blocks of each kind. -/
def labels : Kind → List (List Char)
  | .logic => ["typescript".toList, "ts".toList]
  | .markup => ["html".toList]
  | .stylesheet => ["scss".toList, "css".toList]

/-- What follows the end of a line, which may be written LF or CR LF. -/
def afterLineEnd : List Char → Option (List Char)
  | '\n' :: s => some s
  | '\r' :: '\n' :: s => some s
  | _ => none

theorem suffix_afterLineEnd {s r : List Char} (h : afterLineEnd s = some r) : r <:+ s := by
  unfold afterLineEnd at h
  split at h
  · cases h; exact List.suffix_append ['\n'] r
  · cases h; exact List.suffix_append ['\r', '\n'] r
  · cases h

/-- One of the labels, then the end of the line. -/
def afterLabel (ls : List (List Char)) (s : List Char) : Option (Unit × List Char) :=
  ls.findSome? fun l => ((past? l s).bind afterLineEnd).map ((), ·)

theorem suffix_afterLabel {ls s u r} (h : afterLabel ls s = some (u, r)) : r <:+ s := by
  obtain ⟨l, -, h⟩ := List.exists_of_findSome?_eq_some h
  simp only [Option.map_eq_some_iff, Option.bind_eq_some_iff, Prod.mk.injEq] at h
  obtain ⟨t, ⟨w, h₁, h₂⟩, -, rfl⟩ := h
  exact (suffix_afterLineEnd h₂).trans (suffix_of_past? h₁)

/-- The rest of the line, which must hold no backtick. -/
def afterAnyLabel (s : List Char) : Option (Unit × List Char) :=
  match s.dropWhile fun c => c != '\x60' && c != '\n' with
  | '\n' :: r => some ((), r)
  | _ => none

theorem suffix_afterAnyLabel {s u r} (h : afterAnyLabel s = some (u, r)) : r <:+ s := by
  unfold afterAnyLabel at h
  split at h
  · rename_i t ht
    cases h
    exact (List.suffix_cons '\n' r).trans (ht ▸ List.dropWhile_suffix _)
  · simp at h

def openFence : Matcher Unit := .literal fence (by decide)

/-- A block labelled for the kind; its value is the body. -/
def labelledBlock (k : Kind) : Matcher (List Char) :=
  (openFence.andThen (afterLabel (labels k)) fun _ _ _ => suffix_afterLabel).upTo fence

/-- A block with any label; its value is the body. -/
def anyBlock : Matcher (List Char) :=
  (openFence.andThen afterAnyLabel fun _ _ _ => suffix_afterAnyLabel).upTo fence

/-- Two fences and what lies between them. -/
def closedFence : Matcher (List Char) := openFence.upTo fence

/-- The body of the first block labelled for the kind. -/
def labelledBody (raw : List Char) (k : Kind) : Option (List Char) :=
  ((labelledBlock k).find? raw).map fun (_, body, _) => trim body

/-- Labelled blocks, kind by kind. -/
def tagged (raw : List Char) : Option Sources :=
  let body := labelledBody raw
  if Kind.order.any (body · |>.isSome) then
    some ⟨(body .logic).getD [], (body .markup).getD [], (body .stylesheet).getD []⟩
  else none

/-- The first three blocks, in the order of the kinds. -/
def positional (raw : List Char) : Option Sources :=
  match (anyBlock.findAll raw).map trim with
  | [] => none
  | bodies => some ((Kind.order.zip bodies).foldl (fun s (k, b) => s.set k b) {})

end Mockup.Extraction
