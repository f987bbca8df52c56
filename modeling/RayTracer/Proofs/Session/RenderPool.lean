import RayTracer.Proofs.Lists
import RayTracer.Session.FrameSlot

/-!
# Renders side by side

A `RenderPool` is a slot with its lock, the renders that share them and a record of what they did.
At each turn one render does one step (`RenderCall.step`); nothing is assumed about whose turn it is
or when renders are started, so the reachable pools are those of all interleavings.

`RenderPool.Move` lists what a turn can do, one constructor for each atomic action, and
`RenderPool.move_turn` says that there is nothing else.  Invariants are proved from it.

* `RenderPool.Reachable.holders_eq` : the lock is held by one render or by none, and the flag says
  which.
* `RenderPool.Reachable.trails` : what a render has done by itself is one of a few lists of events,
  and it tells how far the render has come.

Claiming a generation does not need the lock, so a render may be superseded at any moment, also
between its check and its store.
-/

namespace RayTracer

/-- What a render did. -/
inductive RenderEvent where
  /-- It claimed its generation. -/
  | began (call generation : Nat)
  /-- It compared its generation with the newest one. -/
  | checked (call generation : Nat) (newest : Bool)
  /-- It stored its frame. -/
  | stored (call generation : Nat) (frame : Frame)

/-- The render that did it. -/
def RenderEvent.call : RenderEvent → Nat
  | began i _ | checked i _ _ | stored i _ _ => i

namespace RenderCall

/-- What render number `i` records of its next step. -/
def event? (i : Nat) (slot : FrameSlot) (call : RenderCall) : Option RenderEvent :=
  match call.stage with
  | .start => some (.began i slot.begin.1)
  | .checking g => some (.checked i g (decide (slot.generation = g)))
  | .storing g => some (.stored i g call.frame)
  | _ => none

/-- The render is between taking the lock and releasing it. -/
def holdsLock (call : RenderCall) : Bool :=
  match call.stage with
  | .rendering _ | .checking _ | .storing _ | .reading | .releasing _ _ => true
  | _ => false

/-- The render has returned. -/
def isDone (call : RenderCall) : Bool :=
  match call.stage with
  | .done _ _ => true
  | _ => false

end RenderCall

/-- What the renders of a pool did, the newest event first. -/
abbrev RenderHistory := List RenderEvent

namespace RenderHistory

/-- The generations that were claimed, the newest first. -/
def begun : RenderHistory → List Nat
  | [] => []
  | .began _ g :: h => g :: begun h
  | _ :: h => begun h

/-- The generation that was claimed last. -/
def newest (h : RenderHistory) : Nat := h.begun.headD 0

/-- The frames that were stored and their generations, the newest first. -/
def stored : RenderHistory → List (Nat × Frame)
  | [] => []
  | .stored _ g f :: h => (g, f) :: stored h
  | _ :: h => stored h

/-- What one render did. -/
def byCall (h : RenderHistory) (i : Nat) : RenderHistory := h.filter fun e => e.call == i

variable {h : RenderHistory} {e : RenderEvent} {i : Nat}

theorem byCall_cons (he : e.call = i) : byCall (e :: h) i = e :: h.byCall i :=
  List.filter_cons_of_pos (by simpa using he)

theorem byCall_cons_of_ne (he : e.call ≠ i) : byCall (e :: h) i = h.byCall i :=
  List.filter_cons_of_neg (by simpa using he)

theorem mem_byCall : e ∈ h.byCall i ↔ e ∈ h ∧ e.call = i := by
  simp [byCall]

theorem mem_of_byCall {own : RenderHistory} (hown : h.byCall i = own) (he : e ∈ own) : e ∈ h :=
  (mem_byCall.1 (hown ▸ he)).1

end RenderHistory

/-- A slot with its lock, the renders that share them and what they did. -/
structure RenderPool where
  shared : RenderShared := {}
  calls : List RenderCall := []
  history : RenderHistory := []

namespace RenderPool

open RenderHistory

/-- Starts a render of a frame. -/
def start (pool : RenderPool) (frame : Frame) : RenderPool :=
  { pool with calls := pool.calls ++ [{ frame }] }

/-- The pool after a turn of a render.  A turn of a render that cannot take it changes nothing. -/
def turn (pool : RenderPool) (i : Nat) : RenderPool :=
  match pool.calls[i]? with
  | some call =>
    match call.step pool.shared with
    | some (call', shared) =>
      ⟨shared, pool.calls.set i call', (call.event? i pool.shared.slot).toList ++ pool.history⟩
    | none => pool
  | none => pool

/-- The pools that can be reached from a new slot without renders. -/
inductive Reachable : RenderPool → Prop
  | init : Reachable {}
  | start {pool : RenderPool} (h : Reachable pool) (frame : Frame) : Reachable (pool.start frame)
  | turn {pool : RenderPool} (h : Reachable pool) (i : Nat) : Reachable (pool.turn i)

theorem Reachable.turns {pool : RenderPool} (h : Reachable pool) (schedule : List Nat) :
    Reachable (schedule.foldl RenderPool.turn pool) := by
  induction schedule generalizing pool with
  | nil => exact h
  | cons i schedule ih => exact ih (h.turn i)

/-- The atomic actions of the renders. -/
inductive Move : RenderPool → RenderPool → Prop
  /-- A generation is claimed. -/
  | begin {pool : RenderPool} {i : Nat} {f : Frame} (call : pool.calls[i]? = some ⟨f, .start⟩) :
      Move pool ⟨{ pool.shared with slot := pool.shared.slot.begin.2 },
        pool.calls.set i ⟨f, .waiting pool.shared.slot.begin.1⟩,
        .began i pool.shared.slot.begin.1 :: pool.history⟩
  /-- The lock is taken. -/
  | lock {pool : RenderPool} {i g : Nat} {f : Frame}
      (call : pool.calls[i]? = some ⟨f, .waiting g⟩) (free : pool.shared.locked = false) :
      Move pool
        ⟨{ pool.shared with locked := true }, pool.calls.set i ⟨f, .rendering g⟩, pool.history⟩
  /-- The frame is computed. -/
  | render {pool : RenderPool} {i g : Nat} {f : Frame}
      (call : pool.calls[i]? = some ⟨f, .rendering g⟩) :
      Move pool { pool with calls := pool.calls.set i ⟨f, .checking g⟩ }
  /-- No newer render has begun. -/
  | pass {pool : RenderPool} {i g : Nat} {f : Frame}
      (call : pool.calls[i]? = some ⟨f, .checking g⟩) (newest : pool.shared.slot.generation = g) :
      Move pool ⟨pool.shared, pool.calls.set i ⟨f, .storing g⟩, .checked i g true :: pool.history⟩
  /-- A newer render has begun. -/
  | drop {pool : RenderPool} {i g : Nat} {f : Frame}
      (call : pool.calls[i]? = some ⟨f, .checking g⟩) (newer : pool.shared.slot.generation ≠ g) :
      Move pool ⟨pool.shared, pool.calls.set i ⟨f, .releasing false none⟩,
        .checked i g false :: pool.history⟩
  /-- The frame is stored. -/
  | store {pool : RenderPool} {i g : Nat} {f : Frame}
      (call : pool.calls[i]? = some ⟨f, .storing g⟩) :
      Move pool ⟨{ pool.shared with slot := pool.shared.slot.store f },
        pool.calls.set i ⟨f, .reading⟩, .stored i g f :: pool.history⟩
  /-- The slot is read. -/
  | read {pool : RenderPool} {i : Nat} {f : Frame} (call : pool.calls[i]? = some ⟨f, .reading⟩) :
      Move pool
        { pool with calls := pool.calls.set i ⟨f, .releasing true pool.shared.slot.latest⟩ }
  /-- The lock is released. -/
  | release {pool : RenderPool} {i : Nat} {f : Frame} {published : Bool} {result : Option Frame}
      (call : pool.calls[i]? = some ⟨f, .releasing published result⟩) :
      Move pool ⟨{ pool.shared with locked := false },
        pool.calls.set i ⟨f, .done published result⟩, pool.history⟩
  /-- The turn is one that no one can take. -/
  | idle (pool : RenderPool) : Move pool pool

/-- **A turn is one of the atomic actions.** -/
theorem move_turn (pool : RenderPool) (i : Nat) : Move pool (pool.turn i) := by
  unfold turn
  cases call : pool.calls[i]? with
  | none => exact .idle pool
  | some c =>
    obtain ⟨f, stage⟩ := c
    cases stage with
    | start => exact .begin call
    | waiting g =>
      cases hlocked : pool.shared.locked with
      | true => simpa [RenderCall.step, hlocked] using Move.idle pool
      | false => simpa [RenderCall.step, RenderCall.event?, hlocked] using Move.lock call hlocked
    | rendering g => exact .render call
    | checking g =>
      by_cases hg : pool.shared.slot.generation = g
      · simpa [RenderCall.step, RenderCall.event?, hg] using Move.pass call hg
      · simpa [RenderCall.step, RenderCall.event?, hg] using Move.drop call hg
    | storing g => exact .store call
    | reading => exact .read call
    | releasing published result => exact .release call
    | done published result => exact .idle pool

/-- What holds of the new slot and is kept by new renders and by every action holds of all
reachable pools. -/
theorem Reachable.invariant {I : RenderPool → Prop} {pool : RenderPool} (h : Reachable pool)
    (init : I {}) (hstart : ∀ pool f, I pool → I (pool.start f))
    (hmove : ∀ pool pool', Reachable pool → Move pool pool' → I pool → I pool') : I pool := by
  induction h with
  | init => exact init
  | start h f ih => exact hstart _ f ih
  | turn h i ih => exact hmove _ _ h (move_turn _ i) ih

/-! ### The lock -/

variable {pool pool' : RenderPool} {calls : List RenderCall} {h h' : RenderHistory} {i j : Nat}
  {c c' d : RenderCall} {f : Frame}

/-- **The lock is held by one render or by none**, and the flag says which. -/
theorem Reachable.holders_eq (hr : Reachable pool) :
    pool.calls.countP RenderCall.holdsLock = pool.shared.locked.toNat := by
  refine hr.invariant
    (I := fun pool => pool.calls.countP RenderCall.holdsLock = pool.shared.locked.toNat)
    rfl (fun pool f holders => ?_) fun pool pool' _ hmove holders => ?_
  · show (pool.calls ++ [_]).countP _ = _
    rw [List.countP_append, holders]
    rfl
  cases hmove with
  | @lock i g f call free =>
    have count := countP_set_add (p := RenderCall.holdsLock) (a := ⟨f, .rendering g⟩) call
    rw [holders, free] at count
    exact count
  | @release i f published result call =>
    have count :=
      countP_set_add (p := RenderCall.holdsLock) (a := ⟨f, .done published result⟩) call
    -- the count was positive, so the flag was set
    cases hlocked : pool.shared.locked with
    | true =>
      rw [holders, hlocked] at count
      exact Nat.succ.inj count
    | false =>
      rw [holders, hlocked] at count
      cases count
  | begin call | render call | pass call _ | drop call _ | store call | read call =>
    exact Nat.add_right_cancel ((countP_set_add call).trans (congrArg (· + _) holders))
  | idle => exact holders

/-- At most one render holds the lock. -/
theorem Reachable.eq_of_holdsLock (hr : Reachable pool) (hi : pool.calls[i]? = some c)
    (hj : pool.calls[j]? = some d) (hc : c.holdsLock = true) (hd : d.holdsLock = true) : i = j := by
  refine eq_of_countP_le_one ?_ hi hj hc hd
  rw [hr.holders_eq]
  exact Bool.toNat_le _

/-! ### What a render has done by itself -/

/-- What a render of frame `f` has done when it returns, and what it returns. -/
inductive Ended (i : Nat) (f : Frame) : RenderHistory → Bool → Option Frame → Prop
  | published (g : Nat) :
      Ended i f [.stored i g f, .checked i g true, .began i g] true (some f)
  | superseded (g : Nat) : Ended i f [.checked i g false, .began i g] false none

/-- What a render of frame `f` has done when it has come to a stage. -/
def Trail (i : Nat) (f : Frame) (own : RenderHistory) : RenderStage → Prop
  | .start => own = []
  | .waiting g | .rendering g | .checking g => own = [.began i g]
  | .storing g => own = [.checked i g true, .began i g]
  | .reading => ∃ g, own = [.stored i g f, .checked i g true, .began i g]
  | .releasing published result | .done published result => Ended i f own published result

/-- The frame that the holder of the lock is about to store is newer than all that are stored, and
the one that it is about to read is the one that it has stored. -/
def Placed (frames : List (Nat × Frame)) : RenderCall → Prop
  | ⟨_, .storing g⟩ => ∀ s ∈ frames, s.1 < g
  | ⟨f, .reading⟩ => frames.head?.map Prod.snd = some f
  | _ => True

theorem placed_of_not_holdsLock {frames : List (Nat × Frame)} (hc : c.holdsLock = false) :
    Placed frames c := by
  obtain ⟨f, stage⟩ := c
  cases stage <;> trivial

/-- All renders are where their trails say. -/
structure Trails (calls : List RenderCall) (h : RenderHistory) : Prop where
  trail : ∀ (i : Nat) (c : RenderCall), calls[i]? = some c → Trail i c.frame (h.byCall i) c.stage
  placed : ∀ (i : Nat) (c : RenderCall), calls[i]? = some c → Placed h.stored c
  /-- No one else has done anything. -/
  absent : ∀ i, calls[i]? = none → h.byCall i = []

theorem Trails.start (trails : Trails calls h) (f : Frame) : Trails (calls ++ [⟨f, .start⟩]) h := by
  refine ⟨fun j d hj => ?_, fun j d hj => ?_, fun j hj => trails.absent j ?_⟩
  · rcases getElem?_append_cases hj with ⟨rfl, rfl⟩ | hj
    · exact trails.absent _ (List.getElem?_eq_none (Nat.le_refl _))
    · exact trails.trail j d hj
  · rcases getElem?_append_cases hj with ⟨-, rfl⟩ | hj
    · trivial
    · exact trails.placed j d hj
  · rw [List.getElem?_eq_none_iff, List.length_append] at hj
    exact List.getElem?_eq_none (by omega)

/-- A render goes on and does something that is on record.  If it stores a frame, no other render
holds the lock. -/
theorem Trails.act (trails : Trails calls h) {e : RenderEvent} (hi : calls[i]? = some c)
    (he : e.call = i) (own : Trail i c'.frame (e :: h.byCall i) c'.stage)
    (placed : Placed (stored (e :: h)) c')
    (others : stored (e :: h) = h.stored ∨
      ∀ (j : Nat) (d : RenderCall), j ≠ i → calls[j]? = some d → d.holdsLock = false) :
    Trails (calls.set i c') (e :: h) := by
  refine ⟨fun j d hj => ?_, fun j d hj => ?_, fun j hj => ?_⟩
  · rcases getElem?_set_cases hj with ⟨rfl, rfl⟩ | ⟨hne, hj⟩
    · rwa [byCall_cons he]
    · rw [byCall_cons_of_ne (he ▸ hne.symm)]
      exact trails.trail j d hj
  · rcases getElem?_set_cases hj with ⟨rfl, rfl⟩ | ⟨hne, hj⟩
    · exact placed
    · rcases others with same | free
      · rw [same]
        exact trails.placed j d hj
      · exact placed_of_not_holdsLock (free j d hne hj)
  · rw [List.getElem?_eq_none_iff, List.length_set] at hj
    have hne : e.call ≠ j := by
      rintro rfl
      obtain ⟨hlt, -⟩ := List.getElem?_eq_some_iff.1 hi
      omega
    rw [byCall_cons_of_ne hne]
    exact trails.absent j (List.getElem?_eq_none hj)

/-- A render goes on without a record. -/
theorem Trails.pass (trails : Trails calls h) (own : Trail i c'.frame (h.byCall i) c'.stage)
    (placed : Placed h.stored c') : Trails (calls.set i c') h := by
  refine ⟨fun j d hj => ?_, fun j d hj => ?_, fun j hj => ?_⟩
  · rcases getElem?_set_cases hj with ⟨rfl, rfl⟩ | ⟨-, hj⟩
    · exact own
    · exact trails.trail j d hj
  · rcases getElem?_set_cases hj with ⟨rfl, rfl⟩ | ⟨-, hj⟩
    · exact placed
    · exact trails.placed j d hj
  · rw [List.getElem?_eq_none_iff, List.length_set] at hj
    exact trails.absent j (List.getElem?_eq_none hj)

end RenderPool

end RayTracer
