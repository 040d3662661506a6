import Shading.Engine.Host

/-!
# Sharing engines

Renders share one engine: the first that asks for it creates it, and it goes when the last one that
holds it lets go.  The record of calls goes on from one engine to the next.
-/

namespace Shading

/-- The engine that renders share, and who holds it. -/
structure EngineRegistry where
  settings : ScriptSettings
  shaderDirectory : Option String := none
  /-- The engine, while somebody holds it. -/
  live : Option SharedEngine := none
  /-- The handles that are held, in the order of their numbers. -/
  held : List Nat := []
  /-- The number of handles given out. -/
  nextHandle : Nat := 0
  /-- The number of engines created. -/
  created : Nat := 0
  /-- The calls to engines that are gone. -/
  retired : Array EngineCall := #[]

namespace EngineRegistry

def users (r : EngineRegistry) : Nat := r.held.length

/-- The calls to all engines, the earliest first. -/
def calls (r : EngineRegistry) : Array EngineCall := (r.live.map (·.recorder.calls)).getD r.retired

/-- The engine, which is a new one if nobody holds one. -/
def engine (r : EngineRegistry) : SharedEngine :=
  r.live.getD (.new r.settings r.shaderDirectory r.retired)

/-- Gives out a handle to the engine. -/
def acquire (r : EngineRegistry) : Nat × EngineRegistry :=
  (r.nextHandle, { r with
    live := some r.engine
    held := r.held ++ [r.nextHandle]
    nextHandle := r.nextHandle + 1
    created := if r.live.isSome then r.created else r.created + 1 })

/-- Takes a handle back. -/
def release (r : EngineRegistry) (handle : Nat) : EngineRegistry :=
  let held := r.held.erase handle
  if held.isEmpty then { r with held, live := none, retired := r.calls } else { r with held }

end EngineRegistry

end Shading
