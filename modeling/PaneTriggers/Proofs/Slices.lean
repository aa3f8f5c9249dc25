import PaneTriggers.Proofs.Lockstep
import PaneTriggers.Proofs.TickInvariant

/-!
# Slices of a runner

All windows share the watermark, the timer queue and the active windows of a runner. The slice of a
runner at a window (`Runner.slice`) is what there is of that window in them. What is done at another
window leaves the slice (`Runner.LeavesSlice`), and what is done at the window itself goes by nothing
but the slice (`Runner.sameSlice_lockstep`). The watermark and a collection, which are about all
windows, do to each slice what they would do if there were no other.
-/

namespace PaneTriggers

namespace TimerQueue

variable {q q' : TimerQueue} {t : Timer} {ts : List Timer} {w : Window}

/-- The timers of a window. -/
def ofWindow (q : TimerQueue) (w : Window) : TimerQueue :=
  ⟨q.pending.filter fun t => decide (t.window = w)⟩

theorem mem_ofWindow : t ∈ q.ofWindow w ↔ t ∈ q ∧ t.window = w := by
  show t ∈ q.pending.filter _ ↔ _
  simp [Std.ExtTreeSet.mem_filter, mem_pending]

theorem ext_mem (h : ∀ t, t ∈ q ↔ t ∈ q') : q = q' :=
  TimerQueue.ext (Std.ExtTreeSet.ext_mem h)

theorem ofWindow_insertAll (h : ∀ t ∈ ts, t.window = w) :
    (q.insertAll ts).ofWindow w = (q.ofWindow w).insertAll ts := by
  refine ext_mem fun t => ?_
  simp only [mem_ofWindow, Runner.mem_insertAll]
  constructor
  · rintro ⟨ht | ht, hw⟩
    · exact .inl ht
    · exact .inr ⟨ht, hw⟩
  · rintro (ht | ⟨ht, hw⟩)
    · exact ⟨.inl ht, h t ht⟩
    · exact ⟨.inr ht, hw⟩

theorem ofWindow_drain {d : TimeDomain} {now : Timestamp} :
    (q.drain d now).2.ofWindow w = ((q.ofWindow w).drain d now).2 := by
  refine ext_mem fun t => ?_
  simp only [mem_ofWindow, mem_drain]
  tauto

end TimerQueue

/-- What a runner holds of one window, and what it holds that is of no window. -/
@[ext] structure Slice (κ : Type) where
  root : Node κ
  supportsMerging : Bool
  allowedLateness : Nat
  watermark : Option Timestamp
  state : WindowState
  timers : TimerQueue
  active : Bool

namespace Runner

variable {κ σ : Type}

/-- The slice of a runner at a window. -/
def slice (v : Seen κ) (w : Window) : Slice κ where
  root := v.root
  supportsMerging := v.supportsMerging
  allowedLateness := v.allowedLateness
  watermark := v.watermark
  state := v.store w
  timers := v.timers.ofWindow w
  active := decide (w ∈ v.active)

section Slices

variable {v v' : Seen κ} {u w : Window} {ts : List (TimeDomain × Timestamp)}

theorem slice_congr (hsettings : v'.root = v.root ∧ v'.supportsMerging = v.supportsMerging ∧
      v'.allowedLateness = v.allowedLateness)
    (hwatermark : v'.watermark = v.watermark) (hstate : v'.store w = v.store w)
    (htimers : ∀ x : Timer, x.window = w → (x ∈ v'.timers ↔ x ∈ v.timers))
    (hactive : w ∈ v'.active ↔ w ∈ v.active) : v'.slice w = v.slice w := by
  have hof : v'.timers.ofWindow w = v.timers.ofWindow w := TimerQueue.ext_mem fun x => by
    rw [TimerQueue.mem_ofWindow, TimerQueue.mem_ofWindow]
    exact and_congr_left fun hx => htimers x hx
  exact Slice.ext hsettings.1 hsettings.2.1 hsettings.2.2 hwatermark hstate hof
    (decide_eq_decide.2 hactive)

theorem slice_withTimers : (v.withTimers w ts).slice w =
    { v.slice w with timers := (v.slice w).timers.insertAll (ts.map fun t => ⟨t.1, t.2, w⟩) } := by
  have hts : (v.withTimers w ts).timers.ofWindow w = _ :=
    TimerQueue.ofWindow_insertAll fun t ht => by
      obtain ⟨_, -, rfl⟩ := List.mem_map.1 ht
      rfl
  exact Slice.ext rfl rfl rfl rfl rfl hts rfl

theorem slice_put {s : WindowState} : Runner.slice { v with store := v.store.put w s } w =
    { v.slice w with state := s } :=
  Slice.ext rfl rfl rfl rfl (Contents.put_same _ _ _) rfl rfl

theorem slice_insert_active : Runner.slice { v with active := v.active.insert w } w =
    { v.slice w with active := true } :=
  Slice.ext rfl rfl rfl rfl rfl rfl (decide_eq_true (mem_active_insert.2 (.inl rfl)))

/-- Collecting windows leaves nothing of them, and all of the others. -/
theorem slice_foldl_collected (us : List Window) (v : Seen κ) : (us.foldl collected v).slice w =
    if w ∈ us then { v.slice w with state := .empty, timers := .empty, active := false }
      else v.slice w := by
  obtain ⟨q, a, l, h, hq, ha⟩ := foldl_collected us v
  rw [h]
  split_ifs with hw
  · have hnone : q.ofWindow w = .empty := TimerQueue.ext_mem fun x => by
      simp only [TimerQueue.mem_ofWindow, hq, TimerQueue.not_mem_empty, iff_false]
      rintro ⟨⟨-, hx⟩, rfl⟩
      exact hx hw
    exact Slice.ext rfl rfl rfl rfl (if_pos hw) hnone (decide_eq_false fun hm => ((ha w).1 hm).2 hw)
  · refine slice_congr ⟨rfl, rfl, rfl⟩ rfl (if_neg hw) (fun x hx => ?_) ?_
    · exact (hq x).trans (and_iff_left (hx ▸ hw))
    · exact (ha w).trans (and_iff_left hw)

/-- A watermark does to a slice what it does to the runner. -/
theorem slice_advance (v : Seen κ) (t : Timestamp) (w : Window) :
    (v.advance t).2.slice w = (if (v.slice w).watermark.any fun now => decide (t ≤ now) then
        v.slice w
      else { v.slice w with
        watermark := some t, timers := ((v.slice w).timers.drain .eventTime t).2 }) ∧
    (w ∈ (v.advance t).1 ↔ ((v.slice w).watermark.any fun now => decide (t ≤ now)) = false ∧
      ∃ x ∈ (v.slice w).timers, TimerQueue.expires .eventTime t x = true) := by
  have hwoken : w ∈ ((v.timers.drain .eventTime t).1.map Timer.window).eraseDups ↔
      ∃ x ∈ v.timers.ofWindow w, TimerQueue.expires .eventTime t x = true := by
    simp only [mem_woken, TimerQueue.mem_ofWindow]
    constructor
    · rintro ⟨x, hx, he, hw⟩
      exact ⟨x, ⟨hx, hw⟩, he⟩
    · rintro ⟨x, ⟨hx, hw⟩, he⟩
      exact ⟨x, hx, he, hw⟩
  have hwatermark : (v.slice w).watermark = v.watermark := rfl
  unfold advance
  rw [hwatermark]
  split_ifs with hlate
  · simp [hlate]
  · refine ⟨Slice.ext rfl rfl rfl rfl rfl TimerQueue.ofWindow_drain rfl, ?_⟩
    rw [and_iff_right (Bool.eq_false_iff.2 hlate)]
    exact hwoken

variable [CustomTrigger κ]

theorem Occurs.slice_eq {e : Event} (h : Occurs v e v') (he : e.window? = some u) (hu : u ≠ w) :
    v'.slice w = v.slice w := by
  have ha : e ≠ .advanced := by
    rintro rfl
    cases he
  have he' : e.window? ≠ some w := by
    rw [he]
    exact fun hw => hu (Option.some.inj hw)
  have set : ∀ {v : Seen κ} {ts : List (TimeDomain × Timestamp)} (x : Timer), x.window = w →
      (x ∈ (v.withTimers u ts).timers ↔ x ∈ v.timers) := by
    rintro v ts x rfl
    exact ⟨fun hx => (mem_withTimers hx).resolve_left hu.symm, mem_withTimers_of_mem⟩
  have hkept : (∀ x : Timer, x.window = w → (x ∈ v'.timers ↔ x ∈ v.timers)) ∧
      (w ∈ v'.active ↔ w ∈ v.active) := by
    cases h with
    | dropped => exact ⟨fun _ _ => Iff.rfl, Iff.rfl⟩
    | taken =>
      obtain rfl := Option.some.inj he
      refine ⟨fun x hx => TimerQueue.mem_insert.trans ?_, ?_⟩
      · rw [set x hx]
        refine or_iff_right ?_
        rintro rfl
        exact hu hx
      · exact mem_active_insert.trans (or_iff_right hu.symm)
    | stalled hi =>
      obtain rfl := Option.some.inj he
      obtain ⟨ts, rfl⟩ := hi
      exact ⟨set, Iff.rfl⟩
    | fired =>
      obtain rfl := Option.some.inj he
      rw [fired_timers, fired_active]
      exact ⟨set, Iff.rfl⟩
    | forced =>
      obtain rfl := Option.some.inj he
      rw [fired_timers, fired_active]
      exact ⟨set, Iff.rfl⟩
    | advanced => cases he
    | collected =>
      obtain rfl := Option.some.inj he
      refine ⟨fun x hx => ?_, ?_⟩
      · exact TimerQueue.mem_deleteWindow.trans (and_iff_left (hx ▸ hu.symm))
      · exact mem_collected_active.trans (and_iff_left hu.symm)
  exact slice_congr h.settings_eq (h.watermark_eq ha) (h.store_eq he') hkept.1 hkept.2

end Slices

end Runner

/-! ## Elements without the windows they were assigned to -/

section Assigned

open Eval

variable {κ : Type}

/-- From the same state and timers, both evaluations end in the same way and leave the same. -/
abbrev Eval.DraftsAlike (x y : Eval κ Unit) : Prop :=
  InStep (fun p p' : Progress κ => p.toDraft = p'.toDraft) x y Eq

theorem Eval.DraftsAlike.endsAlike {x y : Eval κ Unit} (h : DraftsAlike x y) : EndsAlike x y := by
  intro p
  have hp := h p p rfl
  cases hx : x p <;> cases hy : y p <;> rw [hx, hy] at hp
  · exact hp.2
  · exact hp
  · exact hp
  · exact hp

theorem Eval.hook_alike (h : Hook Unit) : DraftsAlike (κ := κ) (hook h) (hook h) := by
  intro p p' hp
  have hstate : p.state = p'.state := congrArg Draft.state hp
  have htimers : p.timers = p'.timers := congrArg Draft.timers hp
  unfold hook
  rw [hstate, htimers]
  cases h { state := p'.state } with
  | ok _ d => exact ⟨rfl, rfl⟩
  | error e d => exact ⟨rfl, rfl⟩

variable [CustomTrigger κ] {s : Scope} {t : Timestamp} {ws ws' : List Window}

theorem Leaf.onElement_assigned {l : Leaf κ} (hl : l.trigger.IfCustom IgnoresAssigned) :
    DraftsAlike (l.onElement s t ws) (l.onElement s t ws') := by
  obtain ⟨p, trigger⟩ := l
  cases trigger with
  | endOfWindow => exact hook_alike _
  | never => exact .pure rfl
  | custom k =>
    have hhook := hl (site ⟨p, .custom k⟩ s) t ws ws'
    unfold Leaf.onElement
    dsimp only
    rw [hhook]
    exact .bind .get fun _ _ _ => .bind (V := Eq) (.modify fun _ _ h => h) fun _ _ _ => hook_alike _

theorem Trigger.onElement_assigned {r : Trigger κ} (hr : r.Customs IgnoresAssigned) :
    DraftsAlike ((Node.root r).onElement s t ws) ((Node.root r).onElement s t ws') := by
  cases r with
  | once r => exact Leaf.onElement_assigned hr
  | earlyAndLate c =>
    have leaf : ∀ l ∈ (Node.root (.earlyAndLate c)).leaves,
        DraftsAlike (l.onElement s t ws) (l.onElement s t ws') := fun l hl =>
      Leaf.onElement_assigned (EarlyAndLate.Customs.leaves hr l hl)
    unfold Node.onElement
    dsimp only [Node.root]
    refine .ite Iff.rfl (.forM leaf) (.bind .get fun p p' hp => ?_)
    have hstate : p.state = p'.state := congrArg Draft.state hp
    rw [hstate]
    rcases hf : Node.firstUnfinished? ⟨.root, .earlyAndLate c⟩ p'.state with e | l
    · exact .throw
    · exact leaf l (EarlyAndLate.mem_of_firstUnfinished hf)

end Assigned

namespace Runner

variable {κ σ : Type} [StateStore σ] [LawfulStore σ]

/-- The first runner has the tree `t`, and the second has the same slice at `w`. -/
def SameSlice (t : Trigger κ) (w : Window) (r r' : Runner κ σ) : Prop :=
  r.root = .root t ∧ r.seen.slice w = r'.seen.slice w

/-- From the same slice at `w`, both operations give results that `V` relates, or fail in the same
way, and leave the same slice. -/
abbrev SlicesAlike {α β : Type} (t : Trigger κ) (w : Window) (x : RunnerM κ σ α)
    (y : RunnerM κ σ β) (V : α → β → Prop) : Prop :=
  InStep (SameSlice t w) x y V

variable {t : Trigger κ} {w : Window} {s : WindowState}

theorem windowState_slice (hF : ¬LawfulStore.Faulty σ) :
    SlicesAlike t w (windowState w : RunnerM κ σ WindowState) (windowState w) Eq := by
  rintro r r' ⟨hroot, h⟩
  obtain ⟨_, r₁, hr₁, rfl, h₁⟩ :=
    (windowState_ensures (w := w) (v := r.seen)).returns (fun _ _ hx => hF hx.1) rfl
  obtain ⟨_, r₂, hr₂, rfl, h₂⟩ :=
    (windowState_ensures (w := w) (v := r'.seen)).returns (fun _ _ hx => hF hx.1) rfl
  rw [hr₁, hr₂]
  refine ⟨congrArg Slice.state h, (congrArg Runner.root h₁).trans hroot, ?_⟩
  rw [h₁, h₂, h]

theorem save_slice (hF : ¬LawfulStore.Faulty σ) :
    SlicesAlike t w (usingStore (StateStore.save w s) : RunnerM κ σ Unit)
      (usingStore (StateStore.save w s)) Eq := by
  rintro r r' ⟨hroot, h⟩
  obtain ⟨_, r₁, hr₁, h₁⟩ :=
    (save_ensures (w := w) (s := s) (v := r.seen)).returns (fun _ _ hx => hF hx.1) rfl
  obtain ⟨_, r₂, hr₂, h₂⟩ :=
    (save_ensures (w := w) (s := s) (v := r'.seen)).returns (fun _ _ hx => hF hx.1) rfl
  rw [hr₁, hr₂]
  refine ⟨rfl, (congrArg Runner.root h₁).trans hroot, ?_⟩
  rw [h₁, h₂, slice_put, slice_put, h]

theorem sameSlice_lockstep (hF : ¬LawfulStore.Faulty σ) :
    Lockstep (SameSlice t w : Runner κ σ → Runner κ σ → Prop) w where
  root_eq h := congrArg Slice.root h.2
  watermark_eq h := congrArg Slice.watermark h.2
  supportsMerging_eq h := congrArg Slice.supportsMerging h.2
  allowedLateness_eq h := congrArg Slice.allowedLateness h.2
  windowState := windowState_slice hF
  save _ := save_slice hF
  noted _ _ _ _ _ _ _ _ h := h
  withTimers {r r'} ts h := by
    have hts : (r.seen.withTimers w ts).slice w = (r'.seen.withTimers w ts).slice w := by
      rw [slice_withTimers, slice_withTimers, h.2]
    exact ⟨h.1, hts⟩
  activated {r r'} h := by
    have hactive : Runner.slice { r.seen with active := r.active.insert w } w =
        Runner.slice { r'.seen with active := r'.active.insert w } w :=
      slice_insert_active.trans ((congrArg (fun c : Slice κ => { c with active := true }) h.2).trans
        slice_insert_active.symm)
    exact ⟨h.1, hactive⟩

theorem advance_slice {at' : Timestamp} :
    SlicesAlike t w (modifyGet (advance at') : RunnerM κ σ (List Window)) (modifyGet (advance at'))
      fun us us' => w ∈ us ↔ w ∈ us' := by
  rintro r r' ⟨hroot, h⟩
  obtain ⟨hus, hv⟩ := seen_advance at' r
  obtain ⟨hus', hv'⟩ := seen_advance at' r'
  obtain ⟨hslice, hmem⟩ := slice_advance r.seen at' w
  obtain ⟨hslice', hmem'⟩ := slice_advance r'.seen at' w
  rw [hus, h] at hmem
  rw [hus'] at hmem'
  rw [hv, h] at hslice
  rw [hv'] at hslice'
  exact ⟨hmem.trans hmem'.symm, (advance_root r at').trans hroot, hslice.trans hslice'.symm⟩

variable [CustomTrigger κ]

/-- An element comes to a window whatever other windows it was assigned to. -/
theorem deliver_slice (hF : ¬LawfulStore.Faulty σ) (ht : t.Customs IgnoresAssigned)
    {us us' : List Window} {at' : Timestamp} :
    SlicesAlike t w (deliver us at' w : RunnerM κ σ Unit) (deliver us' at' w) Eq := by
  refine (sameSlice_lockstep hF).deliver fun h scope => ?_
  rw [h.1]
  exact (Trigger.onElement_assigned ht).endsAlike

/-- A window is collected from one slice as from another that is the same. -/
theorem garbageCollect_slice (hF : ¬LawfulStore.Faulty σ) (ht : t.Customs NeverFails) :
    SlicesAlike t w (garbageCollect : RunnerM κ σ (List Window)) garbageCollect
      fun us us' => w ∈ us ↔ w ∈ us' := by
  have collects : ∀ r : Runner κ σ, r.root = .root t → ∃ us r₁, garbageCollect r = .ok us r₁ ∧
      (w ∈ us ↔ w ∈ r.active ∧ r.seen.expired w = true ∧ r.seen.idle w = true) ∧
      r₁.root = .root t ∧ r₁.seen.slice w = if w ∈ us then
        { r.seen.slice w with state := .empty, timers := .empty, active := false }
      else r.seen.slice w := by
    intro r hroot
    have nofail : ∀ (e : RunnerError) (r' : Runner κ σ),
        ¬(LawfulStore.Faulty σ ∨ ∃ w, ∃ e, r.seen.readiness w = .error e) := by
      rintro _ _ (hf | ⟨w, e, he⟩)
      · exact hF hf
      · exact readiness_returns (v := r.seen) hroot ht he
    obtain ⟨us, r₁, hr₁, hus, hv⟩ := (garbageCollect_ensures (v := r.seen)).returns nofail rfl
    have hslice := slice_foldl_collected (w := w) us r.seen
    rw [← hv] at hslice
    obtain ⟨q, a, l, hc, -⟩ := foldl_collected us r.seen
    refine ⟨us, r₁, hr₁, ?_, ?_, hslice⟩
    · rw [hus, List.mem_filter, List.mem_filter, Std.ExtTreeSet.mem_toList, and_assoc]
      rfl
    · have hroot₁ : r₁.seen.root = r.seen.root := by rw [hv, hc]
      exact hroot₁.trans hroot
  rintro r r' ⟨hroot, h⟩
  have hlockstep : Lockstep (SameSlice t w : Runner κ σ → Runner κ σ → Prop) w :=
    sameSlice_lockstep hF
  have hroot' : r'.root = .root t := (congrArg Slice.root h).symm.trans hroot
  obtain ⟨us, r₁, hr₁, hus, hroot₁, h₁⟩ := collects r hroot
  obtain ⟨us', r₂, hr₂, hus', -, h₂⟩ := collects r' hroot'
  have hready : r.seen.readiness w = r'.seen.readiness w :=
    readiness_congr (hroot.trans hroot'.symm) (hlockstep.scope_eq ⟨hroot, h⟩)
      (congrArg Slice.state h)
  have hidle : r.seen.idle w = r'.seen.idle w := by
    unfold idle
    rw [hready]
  have hactive : w ∈ r.active ↔ w ∈ r'.active := decide_eq_decide.1 (congrArg Slice.active h)
  have hexpired : r.seen.expired w = r'.seen.expired w := hlockstep.expired_eq ⟨hroot, h⟩
  have hsame : w ∈ us ↔ w ∈ us' := by rw [hus, hus', hactive, hidle, hexpired]
  rw [hr₁, hr₂]
  refine ⟨hsame, hroot₁, ?_⟩
  simp only [h₁, h₂, hsame, h]

/-! ## Other windows -/

section Other

variable {u : Window} {us : List Window} {at' : Timestamp}

/-- The operation is about `u`, and leaves the slice at another window, also if it fails. -/
abbrev LeavesSlice {α : Type} (u w : Window) (act : RunnerM κ σ α) : Prop :=
  u ≠ w → ∀ v : Seen κ, Ensures (fun r : Runner κ σ => r.seen = v) act
    (fun _ r => r.seen.root = v.root ∧ r.seen.slice w = v.slice w)
    fun _ r => r.seen.root = v.root ∧ r.seen.slice w = v.slice w

theorem Occurs.leavesSlice {v v' : Seen κ} {e : Event} (h : Occurs v e v')
    (he : e.window? = some u) (hu : u ≠ w) : v'.root = v.root ∧ v'.slice w = v.slice w :=
  ⟨h.root_eq, h.slice_eq he hu⟩

omit [CustomTrigger κ] in
theorem reading_other {α : Type} {act : RunnerM κ σ α} {A : Seen κ → α → Prop}
    {G : Seen κ → Prop} (h : ∀ v, Ensures (fun r => r.seen = v) act
      (fun a r => A v a ∧ r.seen = v) fun _ r => G v ∧ r.seen = v) :
    LeavesSlice u w act := fun _ v =>
  (h v).mono (fun _ h => h) (fun _ _ h => h.2 ▸ ⟨rfl, rfl⟩) fun _ _ h => h.2 ▸ ⟨rfl, rfl⟩

theorem deliver_other : LeavesSlice u w (deliver us at' u : RunnerM κ σ Unit) := by
  refine fun hu v => deliver_ensures.mono (fun _ h => h) ?_ ?_
  · rintro _ r (⟨reason, hreason, hr⟩ | ⟨hn, p, hp, hr⟩)
    · rw [hr]
      exact (Occurs.dropped hreason).leavesSlice rfl hu
    · rw [hr]
      exact (Occurs.taken hn hp).leavesSlice rfl hu
  · rintro _ r ⟨-, hr⟩
    exact (Occurs.stalled hr).leavesSlice rfl hu

theorem onFire_other : LeavesSlice u w (onFire u : RunnerM κ σ Unit) := by
  refine fun hu v => onFire_ensures.mono (fun _ h => h) ?_ ?_
  · rintro _ r ⟨p, hp, hr⟩
    rw [hr]
    exact (Occurs.forced hp).leavesSlice rfl hu
  · rintro _ r ⟨-, hr⟩
    exact (Occurs.stalled hr).leavesSlice rfl hu

theorem fireIfReady_other : LeavesSlice u w (fireIfReady u : RunnerM κ σ FiringOutcome) := by
  refine fun hu v => fireIfReady_ensures.mono (fun _ h => h) ?_ ?_
  · rintro _ r (⟨-, -, hr⟩ | ⟨-, p, hp, -, hr⟩)
    · rw [hr]
      exact ⟨rfl, rfl⟩
    · rw [hr]
      exact (Occurs.forced hp).leavesSlice rfl hu
  · rintro _ r ⟨-, hr | ⟨p, hp, hr⟩⟩
    · exact (Occurs.stalled hr).leavesSlice rfl hu
    · rw [hr]
      exact (Occurs.forced hp).leavesSlice rfl hu

end Other

end Runner

end PaneTriggers
