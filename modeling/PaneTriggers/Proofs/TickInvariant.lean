import PaneTriggers.Proofs.EndOfWindow

/-!
# Timers of active windows

Over a punctual tree, and with ticks to drive it, a runner keeps every active window that has not
had the firing at its end on the timer of its end (`Tended`). The tick that passes the end wakes
it. In the middle of a tick the windows that are past their end and still owe that firing are among
those yet to be tried (`Ticking`).
-/

namespace PaneTriggers

namespace Runner

variable {κ σ : Type} {t : Trigger κ} {v v' : Seen κ} {w : Window}

theorem endFired_congr (hroot : v'.root = v.root) (hs : v'.store w = v.store w) :
    v'.endFired w = v.endFired w := by
  unfold endFired
  rw [hroot, hs]

/-- Timers belong to active windows, and an active window had its end fired or has its timer. -/
structure Tended (v : Seen κ) : Prop where
  owned : ∀ x ∈ v.timers, x.window ∈ v.active
  woken : ∀ w ∈ v.active, v.endFired w = true ∨ Timer.endOf w ∈ v.timers

/-- In a tick with the windows `ws` still to be tried, those past their end that were not fired are
among them. -/
structure Ticking (ws : List Window) (v : Seen κ) : Prop where
  owned : ∀ x ∈ v.timers, x.window ∈ v.active
  tried : ∀ w ∈ ws, w ∈ v.active
  owed : ∀ w ∈ v.active, w.endedBy v.watermark = true → v.endFired w = true ∨ w ∈ ws
  waiting : ∀ w ∈ v.active, w.endedBy v.watermark = false → Timer.endOf w ∈ v.timers

theorem mem_withTimers {r : Runner κ σ} {x : Timer} {ts : List (TimeDomain × Timestamp)}
    (hx : x ∈ (r.withTimers w ts).timers) : x.window = w ∨ x ∈ r.timers := by
  rcases mem_insertAll.1 hx with hx | hx
  · obtain ⟨y, -, rfl⟩ := List.mem_map.1 hx
    exact .inl rfl
  · exact .inr hx

theorem mem_withTimers_of_mem {x : Timer} {ts : List (TimeDomain × Timestamp)}
    (hx : x ∈ v.timers) : x ∈ (v.withTimers w ts).timers :=
  mem_insertAll.2 (.inr hx)

/-- A change about one window keeps the others tended. -/
theorem Tended.change (h : Tended v) (howned : ∀ x ∈ v'.timers, x.window ∈ v'.active)
    (hw : w ∈ v'.active → v'.endFired w = true ∨ Timer.endOf w ∈ v'.timers)
    (hother : ∀ u ∈ v'.active, u ≠ w → u ∈ v.active ∧ v'.endFired u = v.endFired u ∧
      (Timer.endOf u ∈ v.timers → Timer.endOf u ∈ v'.timers)) : Tended v' := by
  refine ⟨howned, fun u hu => ?_⟩
  by_cases huw : u = w
  · rw [huw] at hu ⊢
    exact hw hu
  · obtain ⟨hua, hf, hx⟩ := hother u hu huw
    rw [hf]
    exact (h.woken u hua).imp_right hx

theorem mem_active_insert {a : Std.ExtTreeSet Window} {u : Window} :
    u ∈ a.insert w ↔ u = w ∨ u ∈ a := by
  rw [Std.ExtTreeSet.mem_insert, Std.LawfulEqOrd.compare_eq_iff_eq, eq_comm]

theorem mem_active_erase {a : Std.ExtTreeSet Window} {u : Window} :
    u ∈ a.erase w ↔ u ≠ w ∧ u ∈ a := by
  rw [Std.ExtTreeSet.mem_erase, ne_eq, Std.LawfulEqOrd.compare_eq_iff_eq, eq_comm (a := w)]

theorem Tended.accepted (h : Tended v) (now : Timestamp) (w : Window) (p : Progress κ) :
    Tended (v.accepted now w p) := by
  have hx : ∀ x, x ∈ (v.accepted now w p).timers ↔
      x = .endOf w ∨ x ∈ (v.withTimers w p.timers).timers := fun x => by
    rw [eq_comm]
    exact TimerQueue.mem_insert
  have ha : ∀ u, u ∈ (v.accepted now w p).active ↔ u = w ∨ u ∈ v.active := fun u =>
    mem_active_insert
  refine h.change (w := w) (fun x hxm => ?_) (fun _ => ?_) fun u hu huw => ?_
  · rw [ha]
    rcases (hx x).1 hxm with rfl | hxm
    · exact .inl rfl
    · exact (mem_withTimers hxm).imp_right (h.owned x)
  · exact .inr ((hx _).2 (.inl rfl))
  · refine ⟨((ha u).1 hu).resolve_left huw, ?_, fun hm => ?_⟩
    · exact endFired_congr rfl (Contents.put_other _ _ huw)
    · exact (hx _).2 (.inr (mem_withTimers_of_mem hm))

theorem Tended.merged {ws : List Window} {d : Window} {p : Progress κ} (h : Tended v)
    (hs : Sound t (v.merged ws d p)) : Tended (v.merged ws d p) := by
  refine h.change (w := d) (fun x hx => ?_) (fun _ => ?_) fun u hu hud => ?_
  · rw [mem_merged_active]
    rcases mem_merged_timers.1 hx with ⟨-, rfl⟩ | ⟨hx, hws⟩
    · exact .inl rfl
    · by_cases hxd : x.window = d
      · exact .inl hxd
      · exact .inr ⟨h.owned x ((mem_withTimers hx).resolve_left hxd), fun hm => hxd (hws hm)⟩
  · rcases hc : v.closedIn (v.mergedState ws d p.state)
    · exact .inr (mem_merged_timers.2 (.inl ⟨hc, rfl⟩))
    · refine .inl (hs.endFired_of_closed ?_)
      rw [merged_store_destination]
      unfold closedIn
      rw [merged_root]
      exact hc
  · obtain ⟨hua, huw⟩ := (mem_merged_active.1 hu).resolve_left hud
    refine ⟨hua, endFired_congr merged_root ?_, fun hm => ?_⟩
    · rw [merged_store]
      exact (if_neg hud).trans (if_neg huw)
    · exact mem_merged_timers.2 (.inr ⟨mem_withTimers_of_mem hm, fun hm => absurd hm huw⟩)

theorem Tended.collected (h : Tended v) (w : Window) : Tended (v.collected w) := by
  have hx : ∀ x, x ∈ (v.collected w).timers ↔ x ∈ v.timers ∧ x.window ≠ w := fun x =>
    TimerQueue.mem_deleteWindow
  have ha : ∀ u, u ∈ (v.collected w).active ↔ u ≠ w ∧ u ∈ v.active := fun u => mem_active_erase
  refine h.change (w := w) (fun x hxm => ?_) (fun hw => ?_) fun u hu huw => ?_
  · obtain ⟨hxv, hxw⟩ := (hx x).1 hxm
    exact (ha _).2 ⟨hxw, h.owned x hxv⟩
  · exact absurd rfl ((ha w).1 hw).1
  · refine ⟨((ha u).1 hu).2, endFired_congr rfl (Contents.put_other _ _ huw), fun hm => ?_⟩
    exact (hx _).2 ⟨hm, huw⟩

/-- Moving the watermark on wakes the windows that it takes past their ends. -/
theorem Tended.advance (h : Tended v) (hs : Sound t v) {now : Timestamp}
    (hnow : ∀ m, v.watermark = some m → m < now) :
    Ticking (v.advance now).1 (v.advance now).2 := by
  obtain ⟨⟨m, hm, hle⟩, -⟩ | ⟨-, ha⟩ := v.advance_cases now
  · have hlt := hnow m hm
    rw [Timestamp.lt_iff] at hlt
    rw [Timestamp.le_iff] at hle
    omega
  have hwoken : ∀ w, w ∈ (v.advance now).1 ↔
      ∃ x ∈ v.timers, TimerQueue.expires .eventTime now x = true ∧ x.window = w := fun w => by
    rw [ha]
    exact mem_woken
  have htimers : ∀ x, x ∈ (v.advance now).2.timers ↔
      x ∈ v.timers ∧ ¬TimerQueue.expires .eventTime now x = true := fun x => by
    rw [ha]
    exact TimerQueue.mem_drain
  have hfired : ∀ w, (v.advance now).2.endFired w = v.endFired w := fun w =>
    endFired_congr (v.advance_root now) (by rw [advance_store])
  have hended : ∀ w, w.endedBy (v.advance now).2.watermark =
      TimerQueue.expires .eventTime now (.endOf w) := fun w => by
    rw [ha]
    rfl
  refine ⟨fun x hx => ?_, fun w hw => ?_, fun w hw he => ?_, fun w hw he => ?_⟩
  · rw [advance_active]
    exact h.owned x ((htimers x).1 hx).1
  · obtain ⟨x, hx, -, rfl⟩ := (hwoken w).1 hw
    rw [advance_active]
    exact h.owned x hx
  · rw [advance_active] at hw
    rw [hended] at he
    rw [hfired]
    exact (h.woken w hw).imp_right fun hx => (hwoken w).2 ⟨_, hx, he, rfl⟩
  · rw [advance_active] at hw
    have hnot : v.endFired w = false := by
      by_contra hf
      rw [Bool.not_eq_false] at hf
      rw [endedBy_advance (hs.ended hf)] at he
      cases he
    have hx := (h.woken w hw).resolve_left (by simp [hnot])
    rw [hended] at he
    exact (htimers _).2 ⟨hx, by simp [he]⟩

theorem endFired_fired {p : Progress κ} (hs : Sound t v)
    (hp : p.state.finished t.endNode = (v.endFired w || w.endedBy v.watermark)) (u : Window) :
    (v.fired w p).endFired u =
      if u = w then v.endFired w || w.endedBy v.watermark else v.endFired u := by
  split_ifs with huw
  · rw [huw]
    unfold Runner.endFired at hp ⊢
    rw [fired_root, fired_store, Contents.put_same, hs.root_eq] at *
    exact hp
  · exact endFired_congr fired_root (by rw [fired_store, Contents.put_other _ _ huw])

theorem Ticking.fire {us : List Window} {p : Progress κ} (hs : Sound t v)
    (h : Ticking (w :: us) v)
    (hp : p.state.finished t.endNode = (v.endFired w || w.endedBy v.watermark)) :
    Ticking us (v.fired w p) := by
  refine ⟨fun x hx => ?_, fun u hu => ?_, fun u hu he => ?_, fun u hu he => ?_⟩
  · rw [fired_active]
    rw [fired_timers] at hx
    rcases mem_withTimers hx with hx | hx
    · rw [hx]
      exact h.tried w List.mem_cons_self
    · exact h.owned x hx
  · rw [fired_active]
    exact h.tried u (List.mem_cons_of_mem _ hu)
  · rw [fired_active] at hu
    rw [fired_watermark] at he
    rw [endFired_fired hs hp]
    split_ifs with huw
    · rw [huw] at he
      simp [he]
    · rcases h.owed u hu he with hf | hm
      · exact .inl hf
      · exact .inr ((List.mem_cons.1 hm).resolve_left huw)
  · rw [fired_active] at hu
    rw [fired_watermark] at he
    rw [fired_timers]
    exact mem_withTimers_of_mem (h.waiting u hu he)

/-- After a tick no active window that is past its end owes its firing. -/
theorem Ticking.endFired (h : Ticking [] v) (hw : w ∈ v.active)
    (he : w.endedBy v.watermark = true) : v.endFired w = true :=
  (h.owed w hw he).resolve_right List.not_mem_nil

theorem Ticking.tended (h : Ticking [] v) : Tended v := by
  refine ⟨h.owned, fun w hw => ?_⟩
  rcases he : w.endedBy v.watermark
  · exact .inr (h.waiting w hw he)
  · exact .inl (h.endFired hw he)

variable [CustomTrigger κ]

/-- Elements, merges and collections keep every window tended. -/
theorem tended_invariant (ht : t.Punctual) : Invariant False fun v => Sound t v ∧ Tended v where
  drop v w reason h := ⟨ht.invariant.drop v w reason h.1, h.2.owned, h.2.woken⟩
  element v ws now w h hn := (ht.invariant.element v ws now w h.1 hn).onReturn fun _ p hs =>
    ⟨hs, h.2.accepted now w p⟩
  ready v w h := ht.invariant.ready v w h.1
  merge v ws d h hws := (ht.invariant.merge v ws d h.1 hws).onReturn fun _ _ hs =>
    ⟨hs, h.2.merged hs⟩
  collect v w h hr := ⟨ht.invariant.collect v w h.1 hr, h.2.collected w⟩
  interrupted _ _ _ hf := hf.elim
  halfMerged _ _ _ _ _ hf := hf.elim

/-- The next window of a tick is not ready, and then owes nothing. -/
theorem Ticking.skip {us : List Window} (ht : t.Punctual) (hs : Sound t v)
    (h : Ticking (w :: us) v) (hr : v.readiness w = .ok false) : Ticking us v := by
  refine ⟨h.owned, fun u hu => h.tried u (List.mem_cons_of_mem _ hu), fun u hu he => ?_, h.waiting⟩
  rcases h.owed u hu he with hf | hm
  · exact .inl hf
  · rcases List.mem_cons.1 hm with rfl | hm
    · by_contra hn
      have hf : v.endFired u = false := by
        by_contra hf
        exact hn (.inl (by simpa using hf))
      exact ht.ready hs he hf hr
    · exact .inr hm

end Runner

end PaneTriggers
