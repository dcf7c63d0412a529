import TileTracer.Render.Renderer
import TileTracer.Text.Quoted

namespace TileTracer

inductive RendererKind where
  | pathTracer
  deriving DecidableEq, Repr

structure Catalog where
  renderers : Table RendererKind
  frameOps : Table FrameOpKind
  palette : Palette

namespace Palette

def builtin : Palette :=
  .ofList (MaterialKind.all.map fun kind => (Renderer.materialName kind.name, kind))

/-- One line with the names in alphabetical order. -/
def summary (p : Palette) : String :=
  "MaterialRegistry \x7b materials: [" ++
    ", ".intercalate (p.sortedNames.map Text.quoted) ++ "] \x7d"

end Palette

namespace Catalog

def empty : Catalog := ⟨.empty, .empty, .empty⟩

def builtin : Catalog where
  renderers := .ofList [(Renderer.typeName, .pathTracer)]
  frameOps := .ofList (FrameOpKind.all.map fun kind => (kind.name, kind))
  palette := .builtin

def registerRenderer (c : Catalog) (name : String) (kind : RendererKind) : Catalog :=
  { c with renderers := c.renderers.set name kind }

def registerFrameOp (c : Catalog) (name : String) (kind : FrameOpKind) : Catalog :=
  { c with frameOps := c.frameOps.set name kind }

def registerMaterial (c : Catalog) (name : String) (kind : MaterialKind) : Catalog :=
  { c with palette := c.palette.set name kind }

def createRenderer (c : Catalog) (images : String → Option Bitmap) (name : String)
    (params : Params) : Except RenderError Renderer :=
  match c.renderers.get? name with
  | none => .error (.unknownRenderer name)
  | some .pathTracer => do
    return .create (← Settings.ofParams images params) c.palette

def createFrameOp (c : Catalog) (name : String) (params : Params) : Except RenderError FrameOp :=
  match c.frameOps.get? name with
  | none => .error (.unknownFrameOp name)
  | some kind => SceneError.lift (kind.create params)

end Catalog

end TileTracer
