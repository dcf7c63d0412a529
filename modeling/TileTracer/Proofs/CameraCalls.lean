import Mathlib.Data.List.Induction
import TileTracer.Scene.Camera

namespace TileTracer

structure Placement where
  position : Vec3 Float32
  target : Vec3 Float32
  up : Vec3 Float32
  deriving DecidableEq

structure Lens where
  fieldOfView : Float32
  defocusAngle : Float32
  focusDistance : Float32
  deriving DecidableEq

inductive CameraCall where
  | placement (p : Placement)
  | lens (l : Lens)
  | aspect (a : Float32)
  deriving DecidableEq

namespace CameraCall

inductive Kind where
  | placement | lens | aspect

namespace Kind

def Argument : Kind → Type
  | placement => Placement
  | lens => Lens
  | aspect => Float32

def argument? : (kind : Kind) → CameraCall → Option kind.Argument
  | placement, .placement p => some p
  | lens, .lens l => some l
  | aspect, .aspect a => some a
  | _, _ => none

end Kind

variable {calls : List CameraCall}

def last? (kind : Kind) (calls : List CameraCall) : Option kind.Argument :=
  (calls.filterMap kind.argument?).getLast?

/-- The last call of each kind. -/
def latest (calls : List CameraCall) : List CameraCall :=
  ((last? .placement calls).map placement).toList ++ ((last? .lens calls).map lens).toList ++
    ((last? .aspect calls).map aspect).toList

/-- No kind of call occurs twice. -/
def AtMostOnce (calls : List CameraCall) : Prop :=
  ∀ kind : Kind, (calls.filterMap kind.argument?).length ≤ 1

def SameLatest (calls others : List CameraCall) : Prop :=
  ∀ kind, last? kind calls = last? kind others

theorem last?_concat (kind : Kind) (calls : List CameraCall) (x : CameraCall) :
    last? kind (calls ++ [x]) = (kind.argument? x).or (last? kind calls) := by
  unfold last?
  rw [List.filterMap_append, List.getLast?_append]
  cases h : kind.argument? x with
  | none => simp [h]
  | some a => simp [h]

theorem filterMap_latest (kind : Kind) (calls : List CameraCall) :
    (latest calls).filterMap kind.argument? = (last? kind calls).toList := by
  unfold latest
  cases kind <;> cases last? .placement calls <;> cases last? .lens calls <;>
    cases last? .aspect calls <;> rfl

/-- There is at most one call of a kind among the last ones, so that their order is no matter. -/
theorem filterMap_of_perm_latest {once : List CameraCall} (h : once.Perm (latest calls))
    (kind : Kind) : once.filterMap kind.argument? = (last? kind calls).toList := by
  have hperm := h.filterMap kind.argument?
  rw [filterMap_latest] at hperm
  cases hlast : last? kind calls with
  | none =>
      rw [hlast] at hperm
      exact List.perm_nil.mp hperm
  | some a =>
      rw [hlast] at hperm
      exact List.perm_singleton.mp hperm

theorem atMostOnce_of_perm_latest {once : List CameraCall} (h : once.Perm (latest calls)) :
    AtMostOnce once := by
  intro kind
  rw [filterMap_of_perm_latest h]
  cases last? kind calls with
  | none => exact Nat.zero_le 1
  | some a => exact Nat.le_refl 1

theorem sameLatest_of_perm_latest {once : List CameraCall} (h : once.Perm (latest calls)) :
    SameLatest once calls := by
  intro kind
  rw [last?, filterMap_of_perm_latest h]
  cases last? kind calls <;> rfl

end CameraCall

open CameraCall (last? latest AtMostOnce SameLatest)

/-- A view with what the last call of each kind gives. -/
def View.settled (v : View) (calls : List CameraCall) : View :=
  let p : Placement := (last? .placement calls).getD ⟨v.position, v.target, v.up⟩
  let l : Lens := (last? .lens calls).getD ⟨v.fieldOfView, v.defocusAngle, v.focusDistance⟩
  { position := p.position, target := p.target, up := p.up,
    fieldOfView := l.fieldOfView, defocusAngle := l.defocusAngle, focusDistance := l.focusDistance,
    aspect := (last? .aspect calls).getD v.aspect }

theorem View.settled_congr (v : View) {calls others : List CameraCall}
    (h : SameLatest calls others) : v.settled calls = v.settled others := by
  unfold settled
  rw [h .placement, h .lens, h .aspect]

namespace Camera

def call (c : Camera) : CameraCall → Camera
  | .placement p => c.withPosition p.position p.target p.up
  | .lens l => c.withLens l.fieldOfView l.defocusAngle l.focusDistance
  | .aspect a => c.withAspect a

def setUp (c : Camera) (calls : List CameraCall) : Camera :=
  calls.foldl call c

/-- The frame is the one computed for the view. -/
def Fresh (c : Camera) : Prop := c.frame = c.view.frame

theorem Fresh.eq_ofView {c : Camera} (h : c.Fresh) : c = ofView c.view := by
  obtain ⟨view, frame⟩ := c
  exact congrArg (Camera.mk view) h

theorem setUp_concat (c : Camera) (calls : List CameraCall) (x : CameraCall) :
    c.setUp (calls ++ [x]) = (c.setUp calls).call x := by
  unfold setUp
  rw [List.foldl_append]
  rfl

theorem call_fresh (c : Camera) (x : CameraCall) : (c.call x).Fresh := by
  cases x <;> rfl

theorem call_view_settled {c : Camera} {v : View} {calls : List CameraCall}
    (h : c.view = v.settled calls) (x : CameraCall) :
    (c.call x).view = v.settled (calls ++ [x]) := by
  unfold View.settled
  rw [CameraCall.last?_concat, CameraCall.last?_concat, CameraCall.last?_concat]
  cases x <;> simp only [call, withPosition, withLens, withAspect, ofView, h, View.settled] <;> rfl

theorem setUp_view (c : Camera) (calls : List CameraCall) :
    (c.setUp calls).view = c.view.settled calls := by
  induction calls using List.reverseRecOn with
  | nil => rfl
  | append_singleton calls x ih =>
    rw [setUp_concat]
    exact call_view_settled ih x

theorem setUp_fresh {c : Camera} {calls : List CameraCall} (h : c.Fresh ∨ calls ≠ []) :
    (c.setUp calls).Fresh := by
  induction calls using List.reverseRecOn with
  | nil => exact h.resolve_right (absurd rfl)
  | append_singleton calls x _ =>
    rw [setUp_concat]
    exact call_fresh _ x

theorem setUp_eq {c : Camera} {calls : List CameraCall} (h : c.Fresh ∨ calls ≠ []) :
    c.setUp calls = ofView (c.view.settled calls) := by
  rw [(setUp_fresh h).eq_ofView, setUp_view]

/-- The last call of each kind decides what a camera is set up to, and so its rays: its frame is
always that of its view, other calls with the same last ones lead to the same camera, among these
the last calls alone in any order, and no frame that was there before leaves a trace. -/
theorem setUp_default (calls : List CameraCall) :
    default.setUp calls = ofView (default.view.settled calls) ∧
      (default.setUp calls).frame = (default.setUp calls).view.frame ∧
      (∀ others, SameLatest others calls → default.setUp others = default.setUp calls ∧
        ∀ screen lens, (default.setUp others).primaryRay screen lens =
          (default.setUp calls).primaryRay screen lens) ∧
      (∀ once, once.Perm (latest calls) →
        AtMostOnce once ∧ default.setUp once = default.setUp calls) ∧
      ∀ stale, calls ≠ [] → Camera.setUp ⟨default.view, stale⟩ calls = default.setUp calls := by
  have hfresh : default.Fresh := rfl
  have hsame : ∀ others, SameLatest others calls → default.setUp others = default.setUp calls := by
    intro others h
    rw [setUp_eq (.inl hfresh), setUp_eq (.inl hfresh), View.settled_congr _ h]
  refine ⟨setUp_eq (.inl hfresh), setUp_fresh (.inl hfresh), fun others h => ?_, fun once h => ?_,
    fun stale h => ?_⟩
  · exact ⟨hsame others h, fun screen lens => by rw [hsame others h]⟩
  · exact ⟨CameraCall.atMostOnce_of_perm_latest h,
      hsame once (CameraCall.sameLatest_of_perm_latest h)⟩
  · rw [setUp_eq (.inr h), setUp_eq (.inl hfresh)]

/-- Calls that others overwrite, before and between these, make no difference. -/
theorem setUp_default_overwritten :
    let place := CameraCall.placement ⟨⟨13.0, 2.0, 3.0⟩, .zero, ⟨0.0, 1.0, 0.0⟩⟩
    let calls := [.aspect 2.0, .lens ⟨40.0, 0.0, 1.0⟩, place, .lens ⟨20.0, 0.3, 10.0⟩, .aspect 1.5]
    let once := [.lens ⟨20.0, 0.3, 10.0⟩, .aspect 1.5, place]
    once.Perm (latest calls) ∧ AtMostOnce once ∧ default.setUp once = default.setUp calls := by
  intro place calls once
  have hperm : once.Perm (latest calls) := by decide
  exact ⟨hperm, (setUp_default calls).2.2.2.1 once hperm⟩

end Camera

end TileTracer
