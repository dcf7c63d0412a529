import TileTracer.Geometry.Ray
import TileTracer.Numeric.Binary32
import TileTracer.Random.Direction

namespace TileTracer

structure View where
  position : Vec3 Float32
  target : Vec3 Float32
  up : Vec3 Float32
  /-- Vertical field of view in degrees. -/
  fieldOfView : Float32
  /-- Width by height. -/
  aspect : Float32
  /-- The angle in degrees by which rays through one point of the screen differ. -/
  defocusAngle : Float32
  /-- Distance of the plane that is in focus. -/
  focusDistance : Float32
  deriving DecidableEq, Repr

/-- The vectors that screen and lens positions are measured along. -/
structure ScreenFrame where
  upperLeft : Vec3 Float32
  horizontal : Vec3 Float32
  vertical : Vec3 Float32
  lensU : Vec3 Float32
  lensV : Vec3 Float32
  deriving DecidableEq, Repr

def View.frame (c : View) : ScreenFrame :=
  let h := (Binary32.toRadians c.fieldOfView / 2.0).tan
  let height := 2.0 * h * c.focusDistance
  let width := height * c.aspect
  let w := (c.position - c.target).normalize
  let u := (c.up.cross w).normalize
  let v := w.cross u
  let horizontal := width * u
  let vertical := -height * v
  let upperLeft :=
    c.position - c.focusDistance * w - horizontal / (2.0 : Float32) - vertical / (2.0 : Float32)
  let radius := c.focusDistance * (Binary32.toRadians (c.defocusAngle / 2.0)).tan
  { upperLeft, horizontal, vertical, lensU := u * radius, lensV := v * radius }

structure Camera where
  view : View
  frame : ScreenFrame
  deriving DecidableEq, Repr

namespace Camera

def ofView (view : View) : Camera := ⟨view, view.frame⟩

def default : Camera := ofView {
  position := .zero
  target := ⟨0.0, 0.0, -1.0⟩
  up := ⟨0.0, 1.0, 0.0⟩
  fieldOfView := 90.0
  aspect := 1.0
  defocusAngle := 0.0
  focusDistance := 1.0 }

def withPosition (c : Camera) (position target up : Vec3 Float32) : Camera :=
  ofView { c.view with position, target, up }

def withLens (c : Camera) (fieldOfView defocusAngle focusDistance : Float32) : Camera :=
  ofView { c.view with fieldOfView, defocusAngle, focusDistance }

def withAspect (c : Camera) (aspect : Float32) : Camera :=
  ofView { c.view with aspect }

/-- The ray through a screen position, from a position on the lens; both in the unit square, with
the screen's origin at its upper left. -/
def primaryRay (c : Camera) (screen lens : Vec2 Float32) : Ray Float32 :=
  let target := c.frame.upperLeft + screen.x * c.frame.horizontal + screen.y * c.frame.vertical
  let origin :=
    if c.view.defocusAngle ≤ 0.0 then c.view.position
    else
      let p := Random.concentricDisk lens
      c.view.position + p.x * c.frame.lensU + p.y * c.frame.lensV
  ⟨origin, target - origin⟩

end Camera

end TileTracer
