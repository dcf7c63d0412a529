import TileTracer.Frame.Region
import TileTracer.Render.Catalog
import TileTracer.Text.Json

namespace TileTracer

def PixelFormat.ofKey? : String → Option PixelFormat
  | "rgba8" => some .rgba8
  | "srgba" => some .srgba
  | "rgba32f" => some .rgba32f
  | _ => none

structure Config where
  width : UInt32
  height : UInt32
  tileSize : UInt32
  format : PixelFormat
  /-- Progressive frames, each with its own samples. -/
  passes : UInt32
  renderer : String
  maxDepth : UInt32
  minContribution : Float32
  epsilon : Float32
  samplesPerPixel : UInt32
  backplate : Option String
  /-- The names of the frame operations in the order in which they run. -/
  frameOps : List String
  exposure : Float32
  output : String
  /-- Keeps alpha; otherwise all pixels are opaque. -/
  transparentBackground : Bool
  deriving DecidableEq, Repr

/-- A setting by its name, with how a value of it changes a configuration. -/
structure ConfigField where
  name : String
  set? : JsonValue → Config → Option Config

namespace Config

def default : Config where
  width := 640
  height := 360
  tileSize := Region.defaultSize.toUInt32
  format := .rgba32f
  passes := 1
  renderer := Renderer.typeName
  maxDepth := Settings.default.maxDepth
  minContribution := Settings.default.minContribution
  epsilon := Settings.default.epsilon
  samplesPerPixel := Settings.default.samplesPerPixel
  backplate := none
  frameOps := [FrameOpKind.toneMap.name]
  exposure := 1.0
  output := "tessel.png"
  transparentBackground := false

/-- The format named by a text, or by the only key of an object that holds null. -/
def format? : JsonValue → Option PixelFormat
  | .text s => s.bind PixelFormat.ofKey?
  | .object [(key, .null)] => key.bind PixelFormat.ofKey?
  | _ => none

/-- A text; null stands for none. -/
def path? : JsonValue → Option (Option String)
  | .null => some none
  | v => v.text?.map some

def fields (reading : NumberReading) : List ConfigField := [
  ⟨"width", fun v c => return { c with width := ← v.word? }⟩,
  ⟨"height", fun v c => return { c with height := ← v.word? }⟩,
  ⟨"tile_size", fun v c => return { c with tileSize := ← v.word? }⟩,
  ⟨"format", fun v c => return { c with format := ← format? v }⟩,
  ⟨"passes", fun v c => return { c with passes := ← v.word? }⟩,
  ⟨"renderer", fun v c => return { c with renderer := ← v.text? }⟩,
  ⟨"max_depth", fun v c => return { c with maxDepth := ← v.word? }⟩,
  ⟨"min_contribution", fun v c => return { c with minContribution := ← v.float? reading }⟩,
  ⟨"epsilon", fun v c => return { c with epsilon := ← v.float? reading }⟩,
  ⟨"samples_per_pixel", fun v c => return { c with samplesPerPixel := ← v.word? }⟩,
  ⟨"backplate", fun v c => return { c with backplate := ← path? v }⟩,
  ⟨"frame_ops", fun v c => return { c with frameOps := ← v.texts? }⟩,
  ⟨"exposure", fun v c => return { c with exposure := ← v.float? reading }⟩,
  ⟨"output", fun v c => return { c with output := ← v.text? }⟩,
  ⟨"transparent_background", fun v c => return { c with transparentBackground := ← v.bool? }⟩]

def field? (reading : NumberReading) (name : String) : Option ConfigField :=
  (fields reading).find? (·.name = name)

/-- Reads settings by name. Unknown names are passed over; no setting is given twice. -/
def ofEntries? (reading : NumberReading) (entries : List (Option String × JsonValue)) :
    Option Config := do
  let names ← entries.mapM (·.1)
  let known := (names.zip (entries.map (·.2))).filterMap fun (name, v) =>
    (field? reading name).map (·, v)
  if (known.map (·.1.name)).Nodup then known.foldlM (fun c (field, v) => field.set? v c) default
  else none

/-- Reads the first settings in their order. -/
def ofItems? (reading : NumberReading) (items : List JsonValue) : Option Config :=
  if items.length ≤ (fields reading).length then
    ((fields reading).zip items).foldlM (fun c (field, v) => field.set? v c) default
  else none

def ofJson? (reading : NumberReading) : JsonValue → Option Config
  | .object entries => ofEntries? reading entries
  | .array items => ofItems? reading items
  | _ => none

def parse? (reading : NumberReading) (text : String) : Option Config :=
  JsonValue.parse? text >>= ofJson? reading

def needsDepth (c : Config) : Bool := c.frameOps.contains FrameOpKind.depth.name

/-- Shows depth behind the other operations, unless it is shown already. -/
def enableDepth (c : Config) : Config :=
  if c.needsDepth then c else { c with frameOps := c.frameOps ++ [FrameOpKind.depth.name] }

def rendererParams (c : Config) : Params :=
  let params : Params := .ofList [
    ("max_depth", .int (.ofNat c.maxDepth.toNat)),
    ("min_contribution", .float c.minContribution),
    ("epsilon", .float c.epsilon),
    ("spp", .int (.ofNat c.samplesPerPixel.toNat))]
  match c.backplate with
  | some path => params.set "backplate" (.text path)
  | none => params

def frameOpParams (c : Config) : Params := .ofList [("exposure", .float c.exposure)]

/-- Depth and albedo where depth is shown. -/
def channels (c : Config) : Channels :=
  if c.needsDepth then ⟨true, true, false⟩ else .colorOnly

def layout (c : Config) : Layout where
  width := c.width.toNat
  height := c.height.toNat
  format := c.format
  channels := c.channels

end Config

end TileTracer
