import Shading.Graph.Basic
import Shading.Attribute

/-!
# Questions about nodes in their graph

Facts that need the links of a node besides its kind: whether its normal is perturbed, and which
geometry attributes it asks for.
-/

namespace Shading.Graph

/-- Whether a closure's normal comes from something other than the geometry. -/
def hasBump (g : Graph) (id : NodeId) : Bool :=
  match g.net.node? id with
  | some node =>
    node.kind.isClosure &&
      match (node.inputIndex? "Normal").bind (g.net.inputLink? id) with
      | some (source, _) =>
        match g.net.node? source with
        | some n => n.kind.special != .geometry
        | none => false
      | none => false
  | none => false

/-- The attributes with those that a node asks for.  A node asks for an attribute only if a link
makes it use one, and the background has no generated coordinates. -/
def addAttributes (g : Graph) (background : Bool) (attributes : AttributeSet) (id : NodeId) :
    AttributeSet :=
  match g.net.node? id with
  | none => attributes
  | some node =>
    match node.kind with
    | .namedAttribute name =>
      if (List.range node.outputs.length).any (g.net.isOutputLinked id) then
        attributes.insertName name
      else attributes
    | .textureCoordinate .. =>
      let attributes :=
        if !background && g.net.isOutputLinked id 0 then attributes.insertStandard .generated
        else attributes
      if g.net.isOutputLinked id 2 then attributes.insertStandard .uv else attributes
    | .imageTexture .. =>
      if g.net.isInputLinked id 0 then attributes else attributes.insertStandard .uv
    | .checkerTexture =>
      if background || g.net.isInputLinked id 0 then attributes
      else attributes.insertStandard .generated
    | _ => attributes

end Shading.Graph
