import RayTracer.Frame

/-!
# Publishing frames

Renders run side by side with the display, and each one claims a generation when it is requested.
The slot keeps the last frame that was published; a frame is published only if no newer render has
begun by then.

`FrameSlot.publish` is the check and the store in one go.  `RenderCall` spells out the single steps
of a call, between which other calls may run: the calls share the slot and a lock that lets one of
them render and publish at a time.
-/

namespace RayTracer

/-- The last published frame and the generation of the newest render. -/
structure FrameSlot where
  latest : Option Frame := none
  /-- Number of renders that have begun.  It stands for a word of 64 bits, which no run exhausts:
  that would take `2 ^ 64` renders. -/
  generation : Nat := 0

namespace FrameSlot

/-- Claims a generation for a new render. -/
def begin (slot : FrameSlot) : Nat × FrameSlot :=
  (slot.generation + 1, { slot with generation := slot.generation + 1 })

/-- Stores a frame. -/
def store (slot : FrameSlot) (frame : Frame) : FrameSlot := { slot with latest := some frame }

/-- Stores the frame of a generation and gives `true`, unless a newer render has begun. -/
def publish (slot : FrameSlot) (generation : Nat) (frame : Frame) : Bool × FrameSlot :=
  if slot.generation = generation then (true, slot.store frame) else (false, slot)

end FrameSlot

/-! ### Renders step by step -/

/-- The slot and the lock that renders share. -/
structure RenderShared where
  slot : FrameSlot := {}
  /-- Some call holds the lock. -/
  locked : Bool := false

/-- How far a render has come. -/
inductive RenderStage where
  /-- Not begun. -/
  | start
  /-- Begun, and waiting for the lock. -/
  | waiting (generation : Nat)
  /-- Holding the lock, about to compute the frame. -/
  | rendering (generation : Nat)
  /-- About to check that no newer render has begun. -/
  | checking (generation : Nat)
  /-- The check succeeded; about to store the frame. -/
  | storing (generation : Nat)
  /-- The frame is stored; about to read the slot. -/
  | reading
  /-- About to release the lock with this result. -/
  | releasing (published : Bool) (result : Option Frame)
  | done (published : Bool) (result : Option Frame)

/-- A render of a frame. -/
structure RenderCall where
  /-- What the render computes from the scene, the camera and the settings at its begin. -/
  frame : Frame
  stage : RenderStage := .start

/-- One step of a render, if it can take one. -/
def RenderCall.step (call : RenderCall) (shared : RenderShared) :
    Option (RenderCall × RenderShared) :=
  match call.stage with
  | .start =>
    let (generation, slot) := shared.slot.begin
    some ({ call with stage := .waiting generation }, { shared with slot })
  | .waiting g =>
    if shared.locked then none
    else some ({ call with stage := .rendering g }, { shared with locked := true })
  | .rendering g => some ({ call with stage := .checking g }, shared)
  | .checking g =>
    if shared.slot.generation = g then some ({ call with stage := .storing g }, shared)
    else some ({ call with stage := .releasing false none }, shared)
  | .storing _ =>
    some ({ call with stage := .reading }, { shared with slot := shared.slot.store call.frame })
  | .reading => some ({ call with stage := .releasing true shared.slot.latest }, shared)
  | .releasing published result =>
    some ({ call with stage := .done published result }, { shared with locked := false })
  | .done _ _ => none

end RayTracer
