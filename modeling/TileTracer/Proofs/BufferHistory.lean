import TileTracer.Proofs.CanvasDrawing
import TileTracer.Proofs.TileSizes
import TileTracer.Render.Progress

namespace TileTracer

open TileTracer.ArrayWrites

inductive TileCommand where
  | beginPass (generation : Nat)
  | record (i : Nat) (found : PixelRecord)
  | endPass (samples : Nat)
  | reset

namespace Tile

/-- A record of a pixel that the tile does not have changes nothing. -/
def step (t : Tile) : TileCommand → Tile
  | .beginPass generation => t.beginPass generation
  | .record i found => (t.record? i found).getD t
  | .endPass samples => t.endPass samples
  | .reset => t.reset

theorem Fits.step {t : Tile} {r : Region} (h : t.Fits r) (command : TileCommand) :
    (t.step command).Fits r := by
  cases command with
  | beginPass generation => exact h.beginPass generation
  | record i found =>
      unfold Tile.step record?
      dsimp only
      split
      · exact h.record i found
      · exact h
  | endPass samples => exact h.endPass samples
  | reset => exact h.reset

/-- The tiles lie over the regions, place by place. -/
def Cover (tiles : Array Tile) (regions : List Region) : Prop :=
  ∀ i : Nat, Option.Rel Fits tiles[i]? regions[i]?

section Cover

variable {tiles : Array Tile} {regions : List Region} {f : Tile → Tile}

theorem Fits.rel_map (hf : ∀ t r, t.Fits r → (f t).Fits r) {t : Option Tile} {r : Option Region}
    (h : Option.Rel Fits t r) : Option.Rel Fits (t.map f) r := by
  cases h with
  | some hfits => exact .some (hf _ _ hfits)
  | none => exact .none

theorem Cover.modify (h : Cover tiles regions) (hf : ∀ t r, t.Fits r → (f t).Fits r) (i : Nat) :
    Cover (tiles.modify i f) regions := by
  intro j
  rw [Array.getElem?_modify]
  split
  · exact Fits.rel_map hf (h j)
  · exact h j

theorem Cover.map (h : Cover tiles regions) (hf : ∀ t r, t.Fits r → (f t).Fits r) :
    Cover (tiles.map f) regions := by
  intro j
  rw [Array.getElem?_map]
  exact Fits.rel_map hf (h j)

theorem Cover.map_region (h : Cover tiles regions) : tiles.toList.map Tile.region = regions := by
  apply List.ext_getElem?
  intro i
  have hi := h i
  rw [List.getElem?_map, Array.getElem?_toList]
  generalize tiles[i]? = t at hi ⊢
  generalize regions[i]? = r at hi ⊢
  cases hi with
  | some hfits => exact congrArg some hfits.region
  | none => rfl

theorem Cover.fits_of_mem (h : Cover tiles regions) {t : Tile} (ht : t ∈ tiles) :
    t.Fits t.region := by
  obtain ⟨i, hi⟩ := Array.mem_iff_getElem?.mp ht
  have hrel := h i
  rw [hi] at hrel
  generalize regions[i]? = r at hrel
  cases hrel with
  | some hfits => exact hfits.region.symm ▸ hfits

theorem Cover.region_mem (h : Cover tiles regions) {t : Tile} (ht : t ∈ tiles) :
    t.region ∈ regions := by
  rw [← h.map_region]
  exact List.mem_map_of_mem (Array.mem_toList_iff.mpr ht)

theorem cover_map_ofRegion (regions : List Region) :
    Cover (regions.map ofRegion).toArray regions := by
  intro i
  rw [List.getElem?_toArray, List.getElem?_map]
  cases regions[i]? with
  | none => exact .none
  | some r => exact .some (ofRegion_fits r)

end Cover

end Tile

theorem ColorStore.write_fits {store : ColorStore} {format : PixelFormat} {n : Nat}
    (hfits : store.Fits format n) (colors : List (Nat × Vec4 Float32)) :
    (store.write format colors).Fits format n := by
  revert hfits
  cases store <;> cases format <;> simp [ColorStore.write, ColorStore.Fits]

theorem Canvas.write_fits {canvas : Canvas} {layout : Layout} (hfits : canvas.Fits layout)
    (colors : List (Nat × Vec4 Float32)) (depths : List (Nat × Float32))
    (albedos : List (Nat × Color)) (normals : List (Nat × Vec3 Float32)) :
    (canvas.write layout.format colors depths albedos normals).Fits layout := by
  have hsize {β : Type} (channel : Option (Array β)) (writes : List (Nat × β)) :
      (channel.map (scatter writes)).map Array.size = channel.map Array.size := by
    rw [Option.map_map]
    exact Option.map_congr fun a _ => size_scatter writes a
  exact ⟨ColorStore.write_fits hfits.color _, (hsize _ _).trans hfits.depth,
    (hsize _ _).trans hfits.albedo, (hsize _ _).trans hfits.normal⟩

theorem Canvas.drawTile_fits {canvas : Canvas} {layout : Layout} (hfits : canvas.Fits layout)
    (tile : Tile) : (canvas.drawTile layout tile).Fits layout := by
  rw [drawTile_eq_write]
  exact write_fits hfits _ _ _ _

theorem Canvas.Fits.channels_eq {canvas : Canvas} {layout : Layout} (hfits : canvas.Fits layout) :
    canvas.channels = layout.channels := by
  have hpresent {β : Type} {channel : Option (Array β)} {present : Bool} {n : Nat}
      (hsize : channel.map Array.size = if present then some n else none) :
      channel.isSome = present := by
    have hsome := congrArg Option.isSome hsize
    rw [Option.isSome_map] at hsome
    rw [hsome]
    cases present <;> rfl
  rw [Canvas.channels, hpresent hfits.depth, hpresent hfits.albedo, hpresent hfits.normal]

/-- Values for one channel, to be written over the first of its pixels. -/
inductive ChannelWrite where
  | bytes (values : Array (Vec4 UInt8))
  | floats (values : Array (Vec4 Float32))
  | depth (values : Array Float32)
  | albedo (values : Array Color)
  | normal (values : Array (Vec3 Float32))

inductive BufferCommand where
  | resize (width height : Nat)
  | setFormat (format : PixelFormat)
  | addOp (op : FrameOp)
  | clearOps
  | resetAccumulation
  | tile (i : Nat) (command : TileCommand)
  | write (values : ChannelWrite)
  | drawTiles
  | endFrame
  | render (renderer : Renderer) (order : FrameBuffer → List Nat)

namespace FrameBuffer

def write (fb : FrameBuffer) : ChannelWrite → FrameBuffer
  | .bytes values => fb.writeBytes values
  | .floats values => fb.writeFloats values
  | .depth values => (fb.writeDepth values).getD fb
  | .albedo values =>
    { fb with canvas := { fb.canvas with albedo := fb.canvas.albedo.map (overwrite · values) } }
  | .normal values =>
    { fb with canvas := { fb.canvas with normal := fb.canvas.normal.map (overwrite · values) } }

/-- A command that fails changes nothing. -/
def step (fb : FrameBuffer) : BufferCommand → FrameBuffer
  | .resize width height => match fb.resize width height with
    | .ok (resized, _) => resized
    | .error _ => fb
  | .setFormat format => (fb.setFormat format).1
  | .addOp op => (fb.addOp op).toOption.getD fb
  | .clearOps => fb.clearOps
  | .resetAccumulation => fb.resetAccumulation
  | .tile i command => { fb with tiles := fb.tiles.modify i (·.step command) }
  | .write values => fb.write values
  | .drawTiles => fb.drawTiles
  | .endFrame => fb.endFrame
  | .render renderer order => (renderer.renderFrame order fb).toOption.getD fb

def run (fb : FrameBuffer) (commands : List BufferCommand) : FrameBuffer := commands.foldl step fb

/-- Channels, tiles and operations are those of the layout. -/
structure WellFormed (fb : FrameBuffer) : Prop where
  width_pos : 0 < fb.layout.width
  height_pos : 0 < fb.layout.height
  tileSize_pos : 0 < fb.tileSize
  canvas : fb.canvas.Fits fb.layout
  tiles : Tile.Cover fb.tiles (Region.cover fb.layout.width fb.layout.height fb.tileSize)
  stages : ∀ stage ∈ fb.stages,
    stage.layout = fb.layout ∧ stage.op.obstacle? fb.layout = none

theorem create_wellFormed {layout : Layout} {tileSize : Nat} {fb : FrameBuffer}
    (h : create layout tileSize = .ok fb) : fb.WellFormed := by
  unfold create at h
  split at h
  · cases h
  · rename_i hsize
    cases h
    simp only [Bool.or_eq_true, decide_eq_true_eq, not_or] at hsize
    exact {
      width_pos := Nat.pos_of_ne_zero hsize.1
      height_pos := Nat.pos_of_ne_zero hsize.2
      tileSize_pos := Nat.le_max_right tileSize 1
      canvas := Canvas.blank_fits layout
      tiles := Tile.cover_map_ofRegion _
      stages := by simp [blank] }

theorem relayout_wellFormed (fb : FrameBuffer) {layout : Layout} (hwidth : 0 < layout.width)
    (hheight : 0 < layout.height) : (fb.relayout layout).WellFormed where
  width_pos := hwidth
  height_pos := hheight
  tileSize_pos := Nat.le_max_right fb.tileSize 1
  canvas := Canvas.blank_fits layout
  tiles := Tile.cover_map_ofRegion _
  stages := by
    intro stage hstage
    obtain ⟨op, _, hattach⟩ := List.mem_filterMap.mp hstage
    unfold FrameOp.attach at hattach
    split at hattach
    · cases hattach
    · rename_i hop
      cases hattach
      exact ⟨rfl, hop⟩

section WellFormed

variable {fb : FrameBuffer} (h : fb.WellFormed)

include h

theorem WellFormed.viewLayout_eq : fb.viewLayout = fb.layout := by
  rw [viewLayout, h.canvas.channels_eq]

theorem WellFormed.setLayout {layout : Layout} (hwidth : 0 < layout.width)
    (hheight : 0 < layout.height) : (fb.setLayout layout).1.WellFormed := by
  unfold FrameBuffer.setLayout
  split
  · exact h
  · exact fb.relayout_wellFormed hwidth hheight

theorem WellFormed.addOp {op : FrameOp} {attached : FrameBuffer}
    (hop : fb.addOp op = .ok attached) : attached.WellFormed := by
  unfold FrameBuffer.addOp FrameOp.attach at hop
  cases hobstacle : op.obstacle? fb.layout with
  | some e => simp [hobstacle, bind, Except.bind] at hop
  | none =>
      simp only [hobstacle, bind, Except.bind, pure, Except.pure, Except.ok.injEq] at hop
      subst hop
      refine { h with stages := ?_ }
      intro stage hstage
      rcases List.mem_append.mp hstage with hstage | hstage
      · exact h.stages stage hstage
      · rw [List.mem_singleton.mp hstage]
        exact ⟨rfl, hobstacle⟩

theorem WellFormed.write (values : ChannelWrite) : (fb.write values).WellFormed := by
  have hsize {β : Type} (channel : Option (Array β)) (values : Array β) :
      (channel.map (overwrite · values)).map Array.size = channel.map Array.size := by
    rw [Option.map_map]
    exact Option.map_congr fun a _ => Array.size_mapIdx
  have hcolor := h.canvas.color
  cases values with
  | bytes values =>
      unfold FrameBuffer.write writeBytes
      dsimp only
      split
      · rename_i pixels hpixels
        refine { h with canvas := { h.canvas with color := ?_ } }
        rw [hpixels] at hcolor
        revert hcolor
        cases fb.layout.format <;> simp [ColorStore.Fits, overwrite]
      · exact h
  | floats values =>
      unfold FrameBuffer.write writeFloats
      dsimp only
      split
      · rename_i pixels hpixels
        refine { h with canvas := { h.canvas with color := ?_ } }
        rw [hpixels] at hcolor
        revert hcolor
        cases fb.layout.format <;> simp [ColorStore.Fits, overwrite]
      · exact h
  | depth values =>
      unfold FrameBuffer.write writeDepth
      dsimp only
      cases hdepth : fb.canvas.depth with
      | none => exact h
      | some depths =>
          have hdepths := (hsize fb.canvas.depth values).trans h.canvas.depth
          rw [hdepth] at hdepths
          exact { h with canvas := { h.canvas with depth := hdepths } }
  | albedo values =>
      exact { h with canvas := { h.canvas with albedo := (hsize _ _).trans h.canvas.albedo } }
  | normal values =>
      exact { h with canvas := { h.canvas with normal := (hsize _ _).trans h.canvas.normal } }

theorem WellFormed.drawTiles : fb.drawTiles.WellFormed := by
  refine { h with canvas := ?_ }
  rw [FrameBuffer.drawTiles, ← Array.foldl_toList]
  have hcanvas := h.canvas
  generalize fb.canvas = canvas at hcanvas ⊢
  induction fb.tiles.toList generalizing canvas with
  | nil => exact hcanvas
  | cons tile tiles ih => exact ih _ (Canvas.drawTile_fits hcanvas tile)

theorem WellFormed.endFrame : fb.endFrame.WellFormed :=
  { h with canvas := FrameOp.foldl_run_fits h.canvas fb.stages }

theorem WellFormed.renderTiles (job : Job) (order : List Nat) :
    (fb.renderTiles job order).WellFormed := by
  induction order generalizing fb with
  | nil => exact h
  | cons i order ih =>
      have htile : (fb.renderTile job i).WellFormed :=
        { h with tiles := h.tiles.modify (fun _ _ => job.renderTile_fits) i }
      exact ih htile

theorem WellFormed.step (command : BufferCommand) : (fb.step command).WellFormed := by
  cases command with
  | resize width height =>
      unfold FrameBuffer.step FrameBuffer.resize
      dsimp only
      split
      · rename_i resized events hresize
        split at hresize
        · cases hresize
        · rename_i hsize
          simp only [Bool.or_eq_true, decide_eq_true_eq, not_or] at hsize
          have hlayout : (fb.setLayout { fb.layout with width, height }).1.WellFormed :=
            h.setLayout (Nat.pos_of_ne_zero hsize.1) (Nat.pos_of_ne_zero hsize.2)
          rw [Except.ok.inj hresize] at hlayout
          exact hlayout
      · exact h
  | setFormat format => exact h.setLayout h.width_pos h.height_pos
  | addOp op =>
      unfold FrameBuffer.step
      dsimp only
      cases hop : fb.addOp op with
      | error e => exact h
      | ok attached => exact h.addOp hop
  | clearOps => exact { h with stages := by simp [FrameBuffer.step, clearOps] }
  | resetAccumulation => exact { h with tiles := h.tiles.map fun _ _ hfits => hfits.reset }
  | tile i command => exact { h with tiles := h.tiles.modify (fun _ _ hfits => hfits.step command) i }
  | write values => exact h.write values
  | drawTiles => exact h.drawTiles
  | endFrame => exact h.endFrame
  | render renderer order =>
      unfold FrameBuffer.step Renderer.renderFrame
      dsimp only
      cases renderer.createJob fb with
      | error e => exact h
      | ok job => exact (h.renderTiles job (order fb)).drawTiles.endFrame

theorem WellFormed.run (commands : List BufferCommand) : (fb.run commands).WellFormed := by
  induction commands generalizing fb with
  | nil => exact h
  | cons command commands ih => exact ih (h.step command)

end WellFormed

/-- The frame buffer has come about by commands from a newly created one. -/
def Reachable (fb : FrameBuffer) : Prop :=
  ∃ (layout : Layout) (tileSize : Nat) (start : FrameBuffer) (commands : List BufferCommand),
    create layout tileSize = .ok start ∧ start.run commands = fb

theorem Reachable.wellFormed {fb : FrameBuffer} (h : fb.Reachable) : fb.WellFormed := by
  obtain ⟨_, _, start, commands, hcreate, rfl⟩ := h
  exact (create_wellFormed hcreate).run commands

end FrameBuffer

end TileTracer
