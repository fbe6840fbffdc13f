import Dfsm.Engine.Documents
import Dfsm.Csharp.Documents
import Dfsm.Go.Documents

/-! The parsers of the C# and the Go SDK against the reference: exactly which documents the
three take alike. -/
namespace Dfsm
open Document (places)

namespace Document

/-- The numbers have 32 bits; below a root that is not parallel each start is a state, and each
target of an event or of `onDone` the key or the whole path of one. -/
structure Written (d : Document) : Prop where
  numbers : (Csharp.numbers d).all Csharp.fitsInt32 = true
  names : d.type = some .parallel ∨ d.Named StateNode.edges

/-- A document that is sound is written so; one that is not has no parallel root, and a start
that is no state or an event whose target has no state's name. -/
def Alike (d : Document) : Prop :=
  (d.Sound → d.Written) ∧ (¬d.Sound → d.type ≠ some .parallel ∧ ¬d.Named StateNode.onEdges)

end Document

theorem namedEvents {d : Document} (accepts : d.Named Document.StateNode.edges) : d.Named Document.StateNode.onEdges :=
  ⟨accepts.root,accepts.starts,fun p mem edge here => accepts.targets p mem edge (List.mem_append_left _ here)⟩

/-- The cart goes to a state by its reference from the root. -/
def checkout : Document where
  id := "checkout"
  initial := some "cart"
  states := [("cart",{ on := [("pay",.shorthand "#checkout.paid")] }),("paid",{ type := some .final })]

end Dfsm
