/-!
# Vectors and transforms

Vectors of two and three 32-bit components, used for colors, points, directions and normals, and
affine transforms stored as three rows of a matrix of three rows and four columns.

Scaling is componentwise and rounds once per component.  Comparisons with zero are comparisons of
numbers, so a negative zero counts as zero.
-/

namespace Shading

/-- Three components: a color, point, direction or normal. -/
structure Vec3 where
  x : Float32
  y : Float32
  z : Float32
  deriving DecidableEq, Inhabited

/-- Two components. -/
structure Vec2 where
  x : Float32
  y : Float32
  deriving DecidableEq, Inhabited

namespace Vec3

/-- The same number in every component. -/
def splat (v : Float32) : Vec3 := ⟨v, v, v⟩

def zero : Vec3 := splat 0

def one : Vec3 := splat 1

def toList (v : Vec3) : List Float32 := [v.x, v.y, v.z]

/-- Every component multiplied by `s`. -/
def scale (v : Vec3) (s : Float32) : Vec3 := ⟨v.x * s, v.y * s, v.z * s⟩

/-- Whether every component equals zero; a negative zero does. -/
def isZero (v : Vec3) : Bool := v.x == 0 && v.y == 0 && v.z == 0

end Vec3

namespace Vec2

def zero : Vec2 := ⟨0, 0⟩

def toList (v : Vec2) : List Float32 := [v.x, v.y]

end Vec2

/-- An affine transform: the three upper rows of a matrix of four, the last of which is fixed. -/
structure Transform where
  rows : Vector (Vector Float32 4) 3
  deriving DecidableEq

namespace Transform

/-- The transform that moves by the given vector. -/
def shift (v : Vec3) : Transform :=
  ⟨#v[#v[1, 0, 0, v.x], #v[0, 1, 0, v.y], #v[0, 0, 1, v.z]]⟩

def identity : Transform := shift Vec3.zero

instance : Inhabited Transform := ⟨identity⟩

def toLists (t : Transform) : List (List Float32) := t.rows.toList.map Vector.toList

/-- The full matrix of four rows. -/
def matrix (t : Transform) : Vector (Vector Float32 4) 4 := t.rows.push #v[0, 0, 0, 1]

/-- The full matrix transposed and read row by row, the layout of matrix parameters. -/
def transposedProjection (t : Transform) : List Float32 :=
  (List.finRange 4).flatMap fun j => (List.finRange 4).map fun i => t.matrix[i][j]

end Transform

end Shading
