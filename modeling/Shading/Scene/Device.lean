import Shading.Bytecode.Opcode
import Shading.Shader.Basic

/-!
# What the kernel reads

For every shader the kernel gets a word of flags with its constant emission.  Programs of
instructions are joined into one array: a table with one jump per shader, then the programs without
their headers.  Programs of an external engine are handed over as group numbers by shader and entry
point.
-/

namespace Shading

/-! ## Kernel shaders -/

namespace KernelFlag

def useMis : UInt32 := 1

def hasEmission : UInt32 := 2

/-- Shadows see through the surface. -/
def hasTransparentShadow : UInt32 := 4

def hasVolume : UInt32 := 8

/-- There is a volume and no surface. -/
def hasOnlyVolume : UInt32 := 16

def heterogeneousVolume : UInt32 := 32

/-- The volume reads attributes. -/
def needVolumeAttributes : UInt32 := 64

/-- A bump perturbs scattering below the surface. -/
def hasBssrdfBump : UInt32 := 128

/-- Points in the volume are chosen by angle. -/
def volumeEquiangular : UInt32 := 256

/-- Points in the volume are chosen by several methods. -/
def volumeMis : UInt32 := 512

/-- The volume is interpolated by cubics. -/
def volumeCubic : UInt32 := 1024

def hasBump : UInt32 := 2048

def hasDisplacement : UInt32 := 4096

def hasConstantEmission : UInt32 := 8192

end KernelFlag

/-- What the kernel knows about a shader. -/
structure KernelShader where
  flags : UInt32
  passId : Int32
  /-- The emission if it is constant, and zero otherwise. -/
  constantEmission : Vec3
  deriving DecidableEq

namespace KernelShader

open KernelFlag

def flagIf (condition : Bool) (flag : UInt32) : UInt32 := if condition then flag else 0

/-- The flag for how points in the volume are chosen. -/
def samplingFlag : VolumeSampling → UInt32
  | .distance => 0
  | .equiangular => volumeEquiangular
  | .multipleImportance => volumeMis

/-- What the kernel knows about a compiled shader.  How points in a volume are chosen matters only
on devices that choose them apart from shading. -/
def ofShader (s : Shader) (volumeDecoupled : Bool) : KernelShader :=
  let f := s.flags
  let emission := s.constantEmission?
  { flags :=
      flagIf s.useMis useMis |||
      flagIf f.hasSurfaceEmission hasEmission |||
      flagIf (f.hasSurfaceTransparent && s.useTransparentShadow) hasTransparentShadow |||
      flagIf f.hasVolume hasVolume |||
      flagIf (f.hasVolume && !f.hasSurface) hasOnlyVolume |||
      flagIf (f.hasVolume && s.heterogeneousVolume && f.hasVolumeSpatialVarying)
        heterogeneousVolume |||
      flagIf f.hasVolumeAttributeDependency needVolumeAttributes |||
      flagIf f.hasBssrdfBump hasBssrdfBump |||
      flagIf volumeDecoupled (samplingFlag s.volumeSampling) |||
      flagIf (s.volumeInterpolation == .cubic) volumeCubic |||
      flagIf f.hasBump hasBump |||
      flagIf (s.displacementMethod != .bump) hasDisplacement |||
      flagIf emission.isSome hasConstantEmission
    passId := s.passId
    constantEmission := emission.getD Vec3.zero }

def toJson (k : KernelShader) : Json :=
  .obj [("flags", .nat k.flags.toNat), ("pass_id", .int k.passId.toInt),
    ("constant_emission", .arr (k.constantEmission.toList.map .float))]

end KernelShader

/-! ## The joined programs -/

/-- The entry of a shader in the table of jumps, and its instructions, which start at `offset`.  The
jumps of a program count its header, which is not copied.  A shader without a program ends at
once. -/
def placeProgram (offset : Nat) (program : Option (Array Instruction)) :
    Instruction × List Instruction :=
  match program.bind fun code => code.toList.head?.map (·, code.toList.tail) with
  | some (header, code) =>
    let rebase := fun (target : Int32) => target - 1 + Int32.ofNat offset
    (.op .shaderJump (rebase header.w1) (rebase header.w2) (rebase header.w3), code)
  | none =>
    let here := Int32.ofNat offset
    (.op .shaderJump here here here, [.op .stop 0 0 0])

/-- Adds a program to the table and to the instructions after it. -/
def appendProgram (count : Nat) (acc : Array Instruction × Array Instruction)
    (program : Option (Array Instruction)) : Array Instruction × Array Instruction :=
  let (jump, code) := placeProgram (count + acc.2.size) program
  (acc.1.push jump, acc.2 ++ code.toArray)

/-- The programs of all shaders as one array. -/
def joinPrograms (programs : List (Option (Array Instruction))) : Array Instruction :=
  let (table, code) := programs.foldl (appendProgram programs.length) (#[], #[])
  table ++ code

/-! ## Groups of an external engine -/

/-- The groups of all shaders, by shader. -/
structure GroupTables where
  surface : List (Option GroupId)
  bump : List (Option GroupId)
  volume : List (Option GroupId)
  displacement : List (Option GroupId)
  background : Option GroupId
  defaultSurface : Option GroupId

namespace GroupTables

/-- The group of a shader's entry point. -/
def group? (s : Shader) (e : EntryPoint) : Option GroupId := do
  (← (← s.compiled).external?).groups.get? e

/-- The groups of all shaders; the background and the default surface are given by position. -/
def ofShaders (shaders : List Shader) (background defaultSurface : ShaderId) : GroupTables :=
  let groups := fun e => shaders.map fun s => group? s e
  { surface := groups .surface
    bump := groups .bump
    volume := groups .volume
    displacement := groups .displacement
    background := ((groups .surface)[background]?).join
    defaultSurface := ((groups .surface)[defaultSurface]?).join }

def toJson (t : GroupTables) : Json :=
  let group := Json.ofOption Json.nat
  let groups := fun (l : List (Option GroupId)) => Json.arr (l.map group)
  .obj [("surface_state", groups t.surface), ("bump_state", groups t.bump),
    ("volume_state", groups t.volume), ("displacement_state", groups t.displacement),
    ("background_state", group t.background), ("default_surface_state", group t.defaultSurface)]

end GroupTables

/-! ## The device -/

/-- Everything that was handed over to the kernel. -/
structure DeviceScene where
  instructions : Array Instruction := #[]
  shaders : List KernelShader := []
  groups : Option GroupTables := none
  /-- The weights of red, green and blue in the brightness of a color. -/
  luminance : Vec3 := Vec3.zero
  uploaded : Bool := false
  /-- The number of times that something was handed over. -/
  uploads : Nat := 0

def DeviceScene.toJson (d : DeviceScene) : Json :=
  .obj [("svm_nodes", .arr (d.instructions.toList.map Instruction.toJson)),
    ("shaders", .arr (d.shaders.map KernelShader.toJson)),
    ("osl", .ofOption GroupTables.toJson d.groups),
    ("rgb_to_y", .arr (d.luminance.toList.map .float)), ("uploaded", .bool d.uploaded),
    ("uploads", .nat d.uploads)]

def DeviceScene.free (d : DeviceScene) : DeviceScene :=
  { d with instructions := #[], shaders := [], groups := none, uploaded := false }

end Shading
