import RayTracer.Proofs.Session.RenderPool
import RayTracer.Session.Basic

/-!
# Frames never go backwards

In every history of a pool each event fits what was done before (`RenderHistory.Sound`): generations
are claimed in order, a check tells whether the generation is the newest one, and a stored frame is
newer than all that were stored before.  The last is where the lock is needed.  A render checks its
generation before it stores its frame, and newer renders may begin in between; but none of them can
store a frame, because the lock is held from before the check until after the store.

Generations are natural numbers.  A counter of 64 bits tells the same as long as fewer than `2^64`
renders have begun.

* `RenderPool.Reachable.ordered` : **histories are sound**.
* `RenderPool.publication` : what follows for the slot, for every render and for the end.
* `RenderPool.foldl_alone` : a render that is not interrupted is `Session.renderBlocking`.
-/

namespace RayTracer

namespace RenderHistory

variable {h newer older : RenderHistory} {i j g : Nat} {f : Frame}

theorem mem_begun : g ∈ h.begun ↔ ∃ i, .began i g ∈ h := by
  induction h with
  | nil => simp [begun]
  | cons e h ih => cases e <;> simp [begun, ih, exists_or]

theorem mem_stored : (g, f) ∈ h.stored ↔ ∃ i, .stored i g f ∈ h := by
  induction h with
  | nil => simp [stored]
  | cons e h ih => cases e <;> simp [stored, ih, exists_or]

theorem newest_mem (hg : g ∈ h.begun) : h.newest ∈ h.begun := by
  unfold newest
  cases hb : h.begun with
  | nil => rw [hb] at hg; cases hg
  | cons g' rest => exact List.mem_cons_self

theorem begun_suffix (hsuffix : older <:+ h) : older.begun <:+ h.begun := by
  obtain ⟨newer, rfl⟩ := hsuffix
  induction newer with
  | nil => exact List.suffix_rfl
  | cons e newer ih =>
    cases e with
    | began i g => exact ih.trans (List.suffix_cons _ _)
    | checked | stored => exact ih

theorem stored_suffix (hsuffix : older <:+ h) : older.stored <:+ h.stored := by
  obtain ⟨newer, rfl⟩ := hsuffix
  induction newer with
  | nil => exact List.suffix_rfl
  | cons e newer ih =>
    cases e with
    | stored i g f => exact ih.trans (List.suffix_cons _ _)
    | began | checked => exact ih

/-! ### Sound histories -/

/-- Every event fits what was done before it. -/
inductive Sound : RenderHistory → Prop
  | nil : Sound []
  | began {h : RenderHistory} (sound : Sound h) (i : Nat) : Sound (.began i (h.newest + 1) :: h)
  | checked {h : RenderHistory} {i g : Nat} (sound : Sound h) (began : .began i g ∈ h) :
      Sound (.checked i g (decide (h.newest = g)) :: h)
  | stored {h : RenderHistory} {i g : Nat} (sound : Sound h) (began : .began i g ∈ h)
      (newer : ∀ s ∈ h.stored, s.1 < g) (f : Frame) : Sound (.stored i g f :: h)

theorem Sound.le_newest (sound : Sound h) : ∀ g ∈ h.begun, g ≤ h.newest := by
  induction sound with
  | nil => exact nofun
  | @began h sound i ih =>
    intro g hg
    rcases List.mem_cons.1 hg with rfl | hg
    · exact Nat.le_refl _
    · exact Nat.le_succ_of_le (ih g hg)
  | checked _ _ ih | stored _ _ _ _ ih => exact ih

/-- Generations are claimed in order. -/
theorem Sound.begun_pairwise (sound : Sound h) : h.begun.Pairwise (· > ·) := by
  induction sound with
  | nil => exact .nil
  | began sound i ih =>
    exact .cons (fun g hg => Nat.lt_succ_of_le (sound.le_newest g hg)) ih
  | checked _ _ ih | stored _ _ _ _ ih => exact ih

/-- A generation belongs to one render. -/
theorem Sound.eq_of_began (sound : Sound h) (hi : .began i g ∈ h) (hj : .began j g ∈ h) :
    i = j := by
  induction sound with
  | nil => cases hi
  | @began h sound k ih =>
    have fresh : ∀ l, .began l (h.newest + 1) ∉ h := by
      intro l hl
      have hle := sound.le_newest _ (mem_begun.2 ⟨l, hl⟩)
      omega
    rcases List.mem_cons.1 hi with hnew | hold <;> rcases List.mem_cons.1 hj with hnew' | hold'
    · cases hnew
      cases hnew'
      rfl
    · cases hnew
      exact absurd hold' (fresh j)
    · cases hnew'
      exact absurd hold (fresh i)
    · exact ih hold hold'
  | checked _ _ ih | stored _ _ _ _ ih => exact ih (by simpa using hi) (by simpa using hj)

theorem Sound.began_of_stored (sound : Sound h) (hs : .stored i g f ∈ h) : .began i g ∈ h := by
  induction sound with
  | nil => cases hs
  | began _ _ ih | checked _ _ ih => exact List.mem_cons_of_mem _ (ih (by simpa using hs))
  | stored _ began _ _ ih =>
    rcases List.mem_cons.1 hs with hs | hs
    · cases hs
      exact List.mem_cons_of_mem _ began
    · exact List.mem_cons_of_mem _ (ih hs)

theorem Sound.stored_le_newest (sound : Sound h) : ∀ s ∈ h.stored, s.1 ≤ h.newest := by
  rintro ⟨g, f⟩ hs
  obtain ⟨i, hi⟩ := mem_stored.1 hs
  exact sound.le_newest g (mem_begun.2 ⟨i, sound.began_of_stored hi⟩)

/-- Frames are stored in the order of their generations. -/
theorem Sound.stored_pairwise (sound : Sound h) : h.stored.Pairwise fun s s' => s'.1 < s.1 := by
  induction sound with
  | nil => exact .nil
  | began _ _ ih | checked _ _ ih => exact ih
  | stored _ _ newer _ ih => exact .cons newer ih

theorem Sound.of_append (sound : Sound (newer ++ older)) : Sound older := by
  induction newer with
  | nil => exact sound
  | cons e newer ih =>
    cases sound with
    | began sound _ | checked sound _ | stored sound _ _ _ => exact ih sound

/-- A check tells whether any newer render has begun. -/
theorem Sound.checked_iff {newest : Bool} (sound : Sound (.checked i g newest :: older)) :
    newest = true ↔ ∀ g' ∈ older.begun, g' ≤ g := by
  cases sound with
  | checked sound began =>
    have hmem : g ∈ older.begun := mem_begun.2 ⟨i, began⟩
    rw [decide_eq_true_iff]
    constructor
    · rintro rfl
      exact sound.le_newest
    · intro hle
      exact Nat.le_antisymm (hle _ (newest_mem hmem)) (sound.le_newest g hmem)

/-- The frame of the newest generation is the one that was stored last. -/
theorem Sound.head?_stored (sound : Sound h) (hs : (h.newest, f) ∈ h.stored) :
    h.stored.head? = some (h.newest, f) := by
  have sorted := sound.stored_pairwise
  have hle := sound.stored_le_newest
  cases hstored : h.stored with
  | nil => rw [hstored] at hs; cases hs
  | cons s rest =>
    rw [hstored] at hs sorted hle
    rcases List.mem_cons.1 hs with rfl | hs
    · rfl
    · have hlt := (List.pairwise_cons.1 sorted).1 _ hs
      exact absurd hlt (Nat.not_lt_of_le (hle s List.mem_cons_self))

/-- A render whose check succeeds has a newer frame than all that are stored. -/
theorem Sound.placed (sound : Sound h) (own : h.byCall i = [.began i h.newest]) :
    ∀ s ∈ h.stored, s.1 < h.newest := by
  rintro ⟨g, f⟩ hs
  refine Nat.lt_of_le_of_ne (sound.stored_le_newest _ hs) ?_
  rintro rfl
  -- a stored frame of this generation would be the render's own
  obtain ⟨j, hj⟩ := mem_stored.1 hs
  have began : .began i h.newest ∈ h := mem_of_byCall own (by simp)
  obtain rfl : j = i := sound.eq_of_began (sound.began_of_stored hj) began
  have hmem : .stored j h.newest f ∈ h.byCall j := mem_byCall.2 ⟨hj, rfl⟩
  simp [own] at hmem

end RenderHistory

open RenderHistory

namespace RenderPool

variable {pool pool' : RenderPool} {h : RenderHistory} {i : Nat} {f : Frame}

/-- The slot tells the generation that was claimed last. -/
theorem Reachable.generation_eq (hr : Reachable pool) :
    pool.shared.slot.generation = pool.history.newest := by
  refine hr.invariant (I := fun pool => pool.shared.slot.generation = pool.history.newest)
    rfl (fun _ _ generation => generation) fun pool pool' _ hmove generation => ?_
  cases hmove with
  | begin => rfl
  | _ => exact generation

/-- The slot holds the frame that was stored last. -/
theorem Reachable.latest_eq (hr : Reachable pool) :
    pool.shared.slot.latest = pool.history.stored.head?.map Prod.snd := by
  refine hr.invariant
    (I := fun pool => pool.shared.slot.latest = pool.history.stored.head?.map Prod.snd)
    rfl (fun _ _ latest => latest) fun pool pool' _ hmove latest => ?_
  cases hmove with
  | store => rfl
  | _ => exact latest

/-- The history is sound, and all renders are where their trails say. -/
structure Ordered (pool : RenderPool) : Prop where
  sound : Sound pool.history
  trails : Trails pool.calls pool.history

theorem Reachable.ordered (hr : Reachable pool) : Ordered pool := by
  refine hr.invariant ⟨.nil, ⟨nofun, nofun, fun _ _ => rfl⟩⟩
    (fun pool f ordered => ⟨ordered.sound, ordered.trails.start f⟩)
    fun pool pool' hr hmove ⟨sound, trails⟩ => ?_
  have generation := hr.generation_eq
  cases hmove with
  | @begin i f call =>
    have own : pool.history.byCall i = [] := trails.trail _ _ call
    refine ⟨?_, trails.act call rfl (congrArg _ own) trivial (.inl rfl)⟩
    show Sound (.began i (pool.shared.slot.generation + 1) :: pool.history)
    rw [generation]
    exact sound.began i
  | lock call _ | render call =>
    have own : pool.history.byCall _ = [.began _ _] := trails.trail _ _ call
    exact ⟨sound, trails.pass own trivial⟩
  | @pass i g f call newest =>
    have own : pool.history.byCall i = [.began i g] := trails.trail _ _ call
    obtain rfl : pool.history.newest = g := generation.symm.trans newest
    have began : .began i pool.history.newest ∈ pool.history := mem_of_byCall own (by simp)
    refine ⟨?_, trails.act call rfl (congrArg _ own) (sound.placed own) (.inl rfl)⟩
    simpa using sound.checked began
  | @drop i g f call newer =>
    have own : pool.history.byCall i = [.began i g] := trails.trail _ _ call
    have hne : pool.history.newest ≠ g := generation ▸ newer
    have began : .began i g ∈ pool.history := mem_of_byCall own (by simp)
    refine ⟨?_, trails.act call rfl ?_ trivial (.inl rfl)⟩
    · simpa [hne] using sound.checked began
    · rw [own]
      exact .superseded g
  | @store i g f call =>
    have own : pool.history.byCall i = [.checked i g true, .began i g] := trails.trail _ _ call
    have newer := trails.placed _ _ call
    have began : .began i g ∈ pool.history := mem_of_byCall own (by simp)
    refine ⟨sound.stored began newer f, trails.act call rfl ⟨g, congrArg _ own⟩ rfl ?_⟩
    -- the lock keeps the others away
    refine .inr fun j d hne hj => ?_
    cases hd : d.holdsLock with
    | false => rfl
    | true => exact absurd (hr.eq_of_holdsLock hj call hd rfl) hne
  | @read i f call =>
    obtain ⟨g, own⟩ := trails.trail _ _ call
    have latest : pool.shared.slot.latest = some f :=
      hr.latest_eq.trans (trails.placed _ _ call)
    refine ⟨sound, trails.pass ?_ trivial⟩
    show Ended i f _ true pool.shared.slot.latest
    rw [own, latest]
    exact .published g
  | release call =>
    have ended : Ended _ _ _ _ _ := trails.trail _ _ call
    exact ⟨sound, trails.pass ended trivial⟩
  | idle => exact ⟨sound, trails⟩

/-! ### What a render that has returned has done -/

/-- Where the check of a render stands in the history. -/
theorem Ended.exists_check {published : Bool} {result : Option Frame}
    (ended : Ended i f (h.byCall i) published result) : ∃ g, ∃ newer older : RenderHistory,
      h = newer ++ .checked i g published :: older ∧ .began i g ∈ older ∧
      (published = true → .stored i g f ∈ newer) := by
  generalize hown : h.byCall i = own at ended
  cases ended with
  | published g =>
    obtain ⟨newest, rest, rfl, -, -, hrest⟩ := List.filter_eq_cons_iff.1 hown
    obtain ⟨newer, older, rfl, -, -, holder⟩ := List.filter_eq_cons_iff.1 hrest
    have began : .began i g ∈ older := mem_of_byCall holder (by simp)
    exact ⟨g, newest ++ .stored i g f :: newer, older, by simp, began, fun _ => by simp⟩
  | superseded g =>
    obtain ⟨newer, older, rfl, -, -, holder⟩ := List.filter_eq_cons_iff.1 hown
    have began : .began i g ∈ older := mem_of_byCall holder (by simp)
    exact ⟨g, newer, older, rfl, began, nofun⟩

/-- A render that was superseded stores nothing. -/
theorem Ended.not_stored {result : Option Frame} (ended : Ended i f (h.byCall i) false result)
    (g : Nat) (f' : Frame) : .stored i g f' ∉ h := by
  intro hs
  have hmem : .stored i g f' ∈ h.byCall i := mem_byCall.2 ⟨hs, rfl⟩
  generalize h.byCall i = own at ended hmem
  cases ended
  simp at hmem

/-- A render claims one generation. -/
theorem Ended.eq_of_began {published : Bool} {result : Option Frame}
    (ended : Ended i f (h.byCall i) published result) {g g' : Nat} (hg : .began i g ∈ h)
    (hg' : .began i g' ∈ h) : g = g' := by
  have hmem : ∀ {g}, .began i g ∈ h → .began i g ∈ h.byCall i := fun hg => mem_byCall.2 ⟨hg, rfl⟩
  have hown := hmem hg
  have hown' := hmem hg'
  generalize h.byCall i = own at ended hown hown'
  cases ended <;> simp at hown hown' <;> omega

/-- A render returns its own frame if it was published, and none otherwise. -/
theorem Ended.result_eq {own : RenderHistory} {published : Bool} {result : Option Frame}
    (ended : Ended i f own published result) : result = if published then some f else none := by
  cases ended <;> rfl

/-! ### Later pools -/

/-- What the pool can become. -/
inductive Later (pool : RenderPool) : RenderPool → Prop
  | refl : Later pool pool
  | start {pool' : RenderPool} (h : Later pool pool') (f : Frame) : Later pool (pool'.start f)
  | turn {pool' : RenderPool} (h : Later pool pool') (i : Nat) : Later pool (pool'.turn i)

theorem Later.reachable (later : Later pool pool') (hr : Reachable pool) : Reachable pool' := by
  induction later with
  | refl => exact hr
  | start _ f ih => exact ih.start f
  | turn _ i ih => exact ih.turn i

theorem suffix_of_move (hmove : Move pool pool') : pool.history <:+ pool'.history := by
  cases hmove with
  | begin | pass | drop | store => exact List.suffix_cons _ _
  | _ => exact List.suffix_rfl

/-- Nothing is taken off the record. -/
theorem Later.suffix (later : Later pool pool') : pool.history <:+ pool'.history := by
  induction later with
  | refl => exact List.suffix_rfl
  | start _ f ih => exact ih
  | turn _ i ih => exact ih.trans (suffix_of_move (move_turn _ i))

/-- **Frames that are stored later are newer**, and until one is stored the slot keeps its frame. -/
theorem Reachable.later (hr : Reachable pool) (later : Later pool pool') : ∃ newer,
    pool'.history.stored = newer ++ pool.history.stored ∧
      (∀ s ∈ newer, ∀ s' ∈ pool.history.stored, s'.1 < s.1) ∧
      (newer = [] → pool'.shared.slot.latest = pool.shared.slot.latest) := by
  have hr' := later.reachable hr
  obtain ⟨newer, hnewer⟩ := stored_suffix later.suffix
  refine ⟨newer, hnewer.symm, ?_, ?_⟩
  · have sorted := hr'.ordered.sound.stored_pairwise
    rw [← hnewer] at sorted
    exact (List.pairwise_append.1 sorted).2.2
  · rintro rfl
    rw [hr'.latest_eq, hr.latest_eq, ← hnewer]
    rfl

/-! ### When all renders have returned -/

/-- **Once all renders have returned, the slot holds the frame of the newest one.** -/
theorem Reachable.latest_of_done (hr : Reachable pool) (hne : pool.calls ≠ [])
    (done : ∀ c ∈ pool.calls, c.isDone = true) : ∃ i c g, pool.calls[i]? = some c ∧
      .began i g ∈ pool.history ∧ (∀ g' ∈ pool.history.begun, g' ≤ g) ∧
      pool.shared.slot.latest = some c.frame := by
  obtain ⟨sound, trails⟩ := hr.ordered
  have ended : ∀ {i c}, pool.calls[i]? = some c →
      ∃ published result, Ended i c.frame (pool.history.byCall i) published result := by
    intro i c hi
    have trail := trails.trail i c hi
    have hdone := done c (List.mem_of_getElem? hi)
    obtain ⟨f, stage⟩ := c
    cases stage with
    | done published result => exact ⟨published, result, trail⟩
    | _ => cases hdone
  -- some render has begun, so there is a newest one
  have hlength := List.length_pos_iff.2 hne
  obtain ⟨published, result, hended⟩ := ended (List.getElem?_eq_getElem hlength)
  obtain ⟨g, newer, older, hsplit, hg, -⟩ := hended.exists_check
  have hbegun : g ∈ pool.history.begun := by
    refine mem_begun.2 ⟨0, ?_⟩
    rw [hsplit]
    exact List.mem_append_right _ (List.mem_cons_of_mem _ hg)
  obtain ⟨i, hi⟩ := mem_begun.1 (newest_mem hbegun)
  obtain ⟨c, hc⟩ : ∃ c, pool.calls[i]? = some c := by
    refine Option.ne_none_iff_exists'.1 fun habsent => ?_
    have hown := mem_byCall.2 ⟨hi, rfl⟩
    rw [RenderEvent.call, trails.absent i habsent] at hown
    cases hown
  obtain ⟨published, result, hended⟩ := ended hc
  obtain ⟨g, newer, older, hsplit, hg, hstored⟩ := hended.exists_check
  have hsuffix : .checked i g published :: older <:+ pool.history := ⟨newer, hsplit.symm⟩
  have holder : older <:+ pool.history := (List.suffix_cons _ _).trans hsuffix
  obtain rfl : g = pool.history.newest := hended.eq_of_began (holder.subset hg) hi
  -- no newer render has begun, so its check succeeded
  have hpublished : published = true := by
    rw [hsplit] at sound
    refine sound.of_append.checked_iff.2 fun g' hg' => ?_
    exact hr.ordered.sound.le_newest g' ((begun_suffix holder).subset hg')
  have hmem : (pool.history.newest, c.frame) ∈ pool.history.stored := by
    refine mem_stored.2 ⟨i, ?_⟩
    rw [hsplit]
    exact List.mem_append_left _ (hsplit ▸ hstored hpublished)
  refine ⟨i, c, pool.history.newest, hc, hi, hr.ordered.sound.le_newest, ?_⟩
  rw [hr.latest_eq, hr.ordered.sound.head?_stored hmem]
  rfl

/-! ### Publication -/

/-- A check that fails leaves the slot as it is. -/
theorem Reachable.shared_turn_of_superseded (hr : Reachable pool) {c : RenderCall} {g : Nat}
    (hi : pool.calls[i]? = some c) (hc : c.stage = .checking g)
    (hnewer : ∃ g' ∈ pool.history.begun, g < g') : (pool.turn i).shared = pool.shared := by
  obtain ⟨g', hg', hlt⟩ := hnewer
  have hne : pool.shared.slot.generation ≠ g := by
    have hle := hr.ordered.sound.le_newest g' hg'
    rw [hr.generation_eq]
    omega
  simp [RenderPool.turn, hi, RenderCall.step, hc, hne]

/-- A render that has stored its frame finds it in the slot. -/
theorem latest_turn_of_storing {c : RenderCall} {g : Nat} (hi : pool.calls[i]? = some c)
    (hc : c.stage = .storing g) : (pool.turn i).shared.slot.latest = some c.frame := by
  simp [turn, hi, RenderCall.step, hc, FrameSlot.store]

/-- **A render that has returned** published its frame exactly if no newer render had begun when it
was checked; then it returns that frame, and otherwise it returns none and has stored nothing. -/
theorem Reachable.returned (hr : Reachable pool) {c : RenderCall} {published : Bool}
    {result : Option Frame} (hi : pool.calls[i]? = some c)
    (hc : c.stage = .done published result) : ∃ g, ∃ newer older : RenderHistory,
      pool.history = newer ++ .checked i g published :: older ∧ .began i g ∈ older ∧
        (published = true ↔ ∀ g' ∈ older.begun, g' ≤ g) ∧
        (published = true → .stored i g c.frame ∈ newer) ∧
        (published = false → ∀ g' f, .stored i g' f ∉ pool.history) ∧
        (∀ f, result = some f → f = c.frame) ∧
        (result = none ↔ ∃ g' ∈ older.begun, g < g') := by
  obtain ⟨sound, trails⟩ := hr.ordered
  have ended : Ended i c.frame (pool.history.byCall i) published result := by
    have trail := trails.trail i c hi
    rwa [hc] at trail
  obtain ⟨g, newer, older, hsplit, hg, hstored⟩ := ended.exists_check
  have hchecked : published = true ↔ ∀ g' ∈ older.begun, g' ≤ g := by
    rw [hsplit] at sound
    exact sound.of_append.checked_iff
  have hresult := ended.result_eq
  refine ⟨g, newer, older, hsplit, hg, hchecked, hstored, ?_, ?_, ?_⟩
  · rintro rfl
    exact ended.not_stored
  · rintro f rfl
    cases published with
    | true => exact Option.some.inj hresult
    | false => cases hresult
  · have hsuperseded : result = none ↔ ¬ published = true := by
      cases published <;> simp [hresult]
    rw [hsuperseded, hchecked]
    simp

/-- **Frame publication.**  However renders take turns, generations are claimed in order and frames
are stored in the order of their generations.  The slot holds the frame that was stored last; it
stays until a newer one is stored, and a check that fails leaves it.  A render that has returned
published its frame exactly if no newer render had begun when it was checked; then it returns that
frame, and otherwise none.  Once all renders have returned, the slot holds the frame of the newest
one. -/
theorem publication (hr : Reachable pool) :
    (pool.history.begun.Pairwise (· > ·) ∧
      (pool.history.stored.map Prod.fst).Pairwise (· > ·)) ∧
    (pool.shared.slot.latest = pool.history.stored.head?.map Prod.snd ∧
      ∀ later, pool.Later later → ∃ newer,
        later.history.stored = newer ++ pool.history.stored ∧
          (∀ s ∈ newer, ∀ s' ∈ pool.history.stored, s'.1 < s.1) ∧
          (newer = [] → later.shared.slot.latest = pool.shared.slot.latest)) ∧
    (∀ i c g, pool.calls[i]? = some c →
      (c.stage = .checking g → (∃ g' ∈ pool.history.begun, g < g') →
        (pool.turn i).shared = pool.shared) ∧
      (c.stage = .storing g → (pool.turn i).shared.slot.latest = some c.frame)) ∧
    (∀ i c published result, pool.calls[i]? = some c → c.stage = .done published result →
      ∃ g, ∃ newer older : RenderHistory,
        pool.history = newer ++ .checked i g published :: older ∧ .began i g ∈ older ∧
          (published = true ↔ ∀ g' ∈ older.begun, g' ≤ g) ∧
          (published = true → .stored i g c.frame ∈ newer) ∧
          (published = false → ∀ g' f, .stored i g' f ∉ pool.history) ∧
          (∀ f, result = some f → f = c.frame) ∧
          (result = none ↔ ∃ g' ∈ older.begun, g < g')) ∧
    (pool.calls ≠ [] → (∀ c ∈ pool.calls, c.isDone = true) →
      ∃ i c g, pool.calls[i]? = some c ∧ .began i g ∈ pool.history ∧
        (∀ g' ∈ pool.history.begun, g' ≤ g) ∧ pool.shared.slot.latest = some c.frame) := by
  have sound := hr.ordered.sound
  exact ⟨⟨sound.begun_pairwise, List.pairwise_map.2 sound.stored_pairwise⟩,
    ⟨hr.latest_eq, fun _ later => hr.later later⟩,
    fun _ _ _ hi => ⟨hr.shared_turn_of_superseded hi, latest_turn_of_storing hi⟩,
    fun _ _ _ _ hi hc => hr.returned hi hc, hr.latest_of_done⟩

/-- Two renders; the second one begins before the first one is checked. -/
def twoRenders : RenderPool :=
  List.foldl turn ((start {} ⟨1, 0, #[], rfl⟩).start ⟨2, 0, #[], rfl⟩) <|
    -- both begin
    [0, 1] ++
    -- the first one takes the lock, is checked and leaves
    [0, 0, 0, 0] ++
    -- the second one publishes its frame
    [1, 1, 1, 1, 1, 1]

theorem twoRenders_eq : twoRenders = ⟨⟨⟨some ⟨2, 0, #[], rfl⟩, 2⟩, false⟩,
    [⟨⟨1, 0, #[], rfl⟩, .done false none⟩,
      ⟨⟨2, 0, #[], rfl⟩, .done true (some ⟨2, 0, #[], rfl⟩)⟩],
    [.stored 1 2 ⟨2, 0, #[], rfl⟩, .checked 1 2 true, .checked 0 1 false, .began 1 2,
      .began 0 1]⟩ := by
  simp [twoRenders, start, turn, RenderCall.step, RenderCall.event?, FrameSlot.begin,
    FrameSlot.store]

theorem publication_twoRenders : Reachable twoRenders ∧
    (∃ g, ∃ newer older : RenderHistory,
      twoRenders.history = newer ++ .checked 0 g false :: older ∧ ∃ g' ∈ older.begun, g < g') ∧
    ∃ (i : Nat) (c : RenderCall) (g : Nat), twoRenders.calls[i]? = some c ∧
      (∀ g' ∈ twoRenders.history.begun, g' ≤ g) ∧
      twoRenders.shared.slot.latest = some c.frame := by
  have reachable : Reachable twoRenders := ((Reachable.init.start _).start _).turns _
  obtain ⟨-, -, -, returned, final⟩ := publication reachable
  refine ⟨reachable, ?_, ?_⟩
  · have first : twoRenders.calls[0]? = some ⟨⟨1, 0, #[], rfl⟩, .done false none⟩ := by
      rw [twoRenders_eq]
      rfl
    obtain ⟨g, newer, older, hsplit, -, -, -, -, -, hnone⟩ := returned 0 _ _ _ first rfl
    exact ⟨g, newer, older, hsplit, hnone.1 rfl⟩
  · obtain ⟨i, c, g, hi, -, hnewest, hlatest⟩ := final
      (by simp [twoRenders_eq]) (by simp [twoRenders_eq, RenderCall.isDone])
    exact ⟨i, c, g, hi, hnewest, hlatest⟩

/-! ### A render by itself -/

variable {shared : RenderShared} {calls : List RenderCall} {c : RenderCall}

theorem turn_set (hi : i < calls.length) : turn ⟨shared, calls.set i c, h⟩ i =
    match c.step shared with
    | some (c', shared') =>
      ⟨shared', calls.set i c', (c.event? i shared.slot).toList ++ h⟩
    | none => ⟨shared, calls.set i c, h⟩ := by
  cases hstep : c.step shared <;> simp [turn, hi, hstep]

/-- **A render by itself publishes its frame and returns it.** -/
theorem foldl_alone (hi : pool.calls[i]? = some ⟨f, .start⟩) (free : pool.shared.locked = false) :
    (List.replicate 7 i).foldl turn pool =
      ⟨⟨pool.shared.slot.begin.2.store f, false⟩, pool.calls.set i ⟨f, .done true (some f)⟩,
        [.stored i pool.shared.slot.begin.1 f, .checked i pool.shared.slot.begin.1 true,
          .began i pool.shared.slot.begin.1] ++ pool.history⟩ := by
  obtain ⟨⟨slot, locked⟩, calls, history⟩ := pool
  obtain rfl : locked = false := free
  obtain ⟨hlt : i < calls.length, hstart⟩ := List.getElem?_eq_some_iff.1 hi
  have hset : calls = calls.set i ⟨f, .start⟩ := hstart ▸ (List.set_getElem_self hlt).symm
  rw [hset]
  -- the seven turns, one after the other
  simp [List.replicate, turn_set hlt, RenderCall.step, RenderCall.event?, FrameSlot.begin,
    FrameSlot.store]

/-- A session that renders a frame without interruption runs a render by itself. -/
theorem renderBlocking_eq_alone {P : Type} (session : Session P)
    (hi : pool.calls[i]? = some ⟨session.image, .start⟩)
    (hshared : pool.shared = ⟨session.frames, false⟩) :
    ((List.replicate 7 i).foldl turn pool).shared.slot = session.renderBlocking.2.frames ∧
      ((List.replicate 7 i).foldl turn pool).calls[i]? =
        some ⟨session.image, .done session.requestRender.1 session.renderBlocking.1⟩ := by
  rw [foldl_alone hi (by rw [hshared])]
  generalize hf : session.image = f at hi
  simp [hshared, Session.renderBlocking, Session.requestRender, FrameSlot.publish, FrameSlot.begin,
    FrameSlot.store, hf, getElem?_set_self_of_some hi]

end RenderPool

end RayTracer
