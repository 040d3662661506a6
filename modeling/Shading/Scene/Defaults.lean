import Shading.Shader.Basic

/-!
# Default shaders

Every scene starts with five shaders: a gray surface, a scattering volume, a light of unit strength,
and two without anything, one of which is the background.
-/

namespace Shading.Shader

/-- A shader in which an output of one node, with constants in its inputs, feeds a terminal. -/
def ofNode (name : String) (kind : NodeKind) (constants : List (String × SocketValue))
    (output terminal : String) : Shader :=
  let s := Shader.new name
  let (id, graph) := s.graph.add kind
  let result : Except GraphError Graph := do
    let graph ← constants.foldlM (fun g (input, value) => g.setInput id input value) graph
    graph.connect id output graph.output terminal
  s.editGraph (result.toOption.getD graph)

/-- The default shaders, in the order of their numbers. -/
def defaults : List Shader :=
  [ofNode "default_surface" .diffuseBsdf [("Color", .vec3 (.splat 0.8))] "BSDF" "Surface",
    ofNode "default_volume" .scatterVolume [] "Volume" "Volume",
    ofNode "default_light" .emission [("Color", .vec3 (.splat 0.8)), ("Strength", .float 1)]
      "Emission" "Surface",
    .new "default_background",
    .new "default_empty"]

/-- The numbers of the default shaders in a scene. -/
structure DefaultIds where
  surface : ShaderId := 0
  volume : ShaderId := 1
  light : ShaderId := 2
  background : ShaderId := 3
  empty : ShaderId := 4

def DefaultIds.toJson (d : DefaultIds) : Json :=
  .obj [("surface", .nat d.surface), ("volume", .nat d.volume), ("light", .nat d.light),
    ("background", .nat d.background), ("empty", .nat d.empty)]

end Shading.Shader
