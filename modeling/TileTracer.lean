import TileTracer.Main
import TileTracer.Proofs.ArrayWrites
import TileTracer.Proofs.CanvasDrawing
import TileTracer.Proofs.RegionCover
import TileTracer.Proofs.RegionPartition
import TileTracer.Proofs.GridSweep
import TileTracer.Proofs.CheckedWords
import TileTracer.Proofs.TileSizes
import TileTracer.Proofs.CheckedTiles
import TileTracer.Proofs.TilePasses
import TileTracer.Proofs.PixelSamples
import TileTracer.Proofs.TileHistory
import TileTracer.Proofs.BufferHistory
import TileTracer.Proofs.TileBookkeeping
import TileTracer.Proofs.GuardedHistory
import TileTracer.Proofs.LayoutChanges
import TileTracer.Proofs.FrameEffects
import TileTracer.Proofs.GuardedDrawing
import TileTracer.Proofs.CheckedPasses
import TileTracer.Proofs.TileMosaic
import TileTracer.Proofs.TileIndependence
import TileTracer.Proofs.CheckedHistory
import TileTracer.Proofs.WorldHistory
import TileTracer.Proofs.WorkInPlace
import TileTracer.Proofs.WorldInPlace
import TileTracer.Proofs.NarrowedWindow
import TileTracer.Proofs.BoxTreeSearch
import TileTracer.Proofs.Binary32Order
import TileTracer.Proofs.Binary32Rounding
import TileTracer.Proofs.Binary32Arithmetic
import TileTracer.Proofs.SortingPermutation
import TileTracer.Proofs.SortingSuccess
import TileTracer.Proofs.BoxTreeConstruction
import TileTracer.Proofs.NearestPrimitive
import TileTracer.Proofs.VolumeExit
import TileTracer.Proofs.RendererHistory
import TileTracer.Proofs.WindowedHits
import TileTracer.Proofs.CommittedHits
import TileTracer.Proofs.FirstHits
import TileTracer.Proofs.FreshChannels
import TileTracer.Proofs.EncodedBytes
import TileTracer.Proofs.SessionCounters
import TileTracer.Proofs.CommandsInPlace
import TileTracer.Proofs.SceneBinding
import TileTracer.Proofs.CommandSettings
import TileTracer.Proofs.CommandOutcome
import TileTracer.Proofs.StreamDraws
import TileTracer.Proofs.PathSegments
import TileTracer.Proofs.HeapOrder
import TileTracer.Proofs.SortingOrder
import TileTracer.Proofs.MonotoneScalars
import TileTracer.Proofs.RankedScalars
import TileTracer.Proofs.ExactNumbers
import TileTracer.Proofs.ExactMonotone
import TileTracer.Proofs.SlabTest
import TileTracer.Proofs.HitFormulas
import TileTracer.Proofs.ExactGeometry
import TileTracer.Proofs.HitEnclosure
import TileTracer.Proofs.ExactScaling
import TileTracer.Proofs.RayStretching
import TileTracer.Proofs.Binary32Monotone
import TileTracer.Proofs.Binary32Error
import TileTracer.Proofs.BoxEnclosure
import TileTracer.Proofs.BoxTreeShape
import TileTracer.Proofs.VolumeEntry
import TileTracer.Proofs.FiniteCentroids
import TileTracer.Proofs.SingularTransforms
import TileTracer.Proofs.TransformedBoxes
import TileTracer.Proofs.FlattenedInstances
import TileTracer.Proofs.Binary32Bytes
import TileTracer.Proofs.Binary32Spans
import TileTracer.Proofs.DepthNormalization
import TileTracer.Proofs.DepthEnds
import TileTracer.Proofs.DepthSharing
import TileTracer.Proofs.FilmicCurve
import TileTracer.Proofs.FilmicRounding
import TileTracer.Proofs.ToneMapping
import TileTracer.Proofs.RequestedCounts
import TileTracer.Proofs.PixelSeeds
import TileTracer.Proofs.Binary32Naturals
import TileTracer.Proofs.Binary32Reciprocals
import TileTracer.Proofs.CenterOrder
import TileTracer.Proofs.BackplateSampling
import TileTracer.Proofs.CameraCalls
import TileTracer.Proofs.PixelCoverage
