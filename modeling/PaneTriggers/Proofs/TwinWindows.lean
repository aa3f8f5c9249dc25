import PaneTriggers.Proofs.TreeTimers

/-!
# Feeding the active child only

Where windows cannot merge, a composite hands an element to the child whose turn it is, and where
they can to every child. Take a window that is fed in the first way and one that is fed in the
second. They stay twins: the same nodes are done, and the counters agree but for that of the child
whose turn it is not. What that child counted is cleared when its turn comes, so twins take
elements, decide and fire alike.
-/

namespace PaneTriggers

open Eval EarlyAndLate

variable {κ : Type} {c : EarlyAndLate κ} {w w' : WindowState} {p : Position} {n : Counter}

/-- The child whose turn it is not. -/
def WindowState.idle (w : WindowState) : Position := if w.finished .early then .early else .late

/-- The same nodes are done, and no counter differs but that of the child whose turn it is not. -/
structure Twin (c : EarlyAndLate κ) (w w' : WindowState) : Prop where
  finished : SameFinished w w'
  counter : ∀ q, c.late = none ∨ q ≠ w.idle → w'.counter q = w.counter q

namespace Twin

theorem refl (w : WindowState) : Twin c w w := ⟨.refl w, fun _ _ => rfl⟩

theorem view (h : Twin c w w') (hp : c.late = none ∨ p ≠ w.idle) : SameView p w w' :=
  ⟨h.finished, h.counter p hp⟩

theorem idle_setCounter : (w.setCounter p n).idle = w.idle := by
  unfold WindowState.idle
  rw [WindowState.finished_setCounter]

theorem setCounter (h : Twin c w w') : Twin c (w.setCounter p n) (w'.setCounter p n) := by
  refine ⟨fun q => ?_, fun q hq => ?_⟩
  · simp only [WindowState.finished_setCounter, h.finished q]
  · rw [idle_setCounter] at hq
    simp only [WindowState.counter_setCounter, h.counter q hq]

/-- The child whose turn it is not counts in the second window alone. -/
theorem setCounter_idle (h : Twin c w w') (hc : c.late ≠ none) :
    Twin c w (w'.setCounter w.idle n) := by
  refine ⟨fun q => ?_, fun q hq => ?_⟩
  · rw [WindowState.finished_setCounter, h.finished q]
  · have hne : w.idle ≠ q := by
      rcases hq with hq | hq
      · exact absurd hq hc
      · exact Ne.symm hq
    rw [WindowState.counter_setCounter, if_neg hne, h.counter q (.inr (Ne.symm hne))]

end Twin

/-- What a firing hook leaves of a window. Without a late child there is none to fire. -/
def LeftBy (c : EarlyAndLate κ) (p : Position) (w w₁ : WindowState) : Prop :=
  CounterAt p w w₁ ∧ (c.late = none → p = .late → w₁ = w)

theorem LeftBy.refl (p : Position) (w : WindowState) : LeftBy c p w w := ⟨.refl p w, fun _ _ => rfl⟩

theorem CounterAt.counter_other {w₁ : WindowState} (h : CounterAt p w w₁) {q : Position}
    (hq : p ≠ q) : w₁.counter q = w.counter q := by
  obtain ⟨n, rfl⟩ := h
  rw [WindowState.counter_setCounter, if_neg hq]

/-- Clearing a node forgets how two states differ in its counter. -/
theorem WindowState.counter_clearSubtree_congr {D : Position → Prop}
    (h : ∀ q, D q → w'.counter q = w.counter q) {q : Position} (hq : q = p ∨ D q) :
    (w'.clearSubtree p).counter q = (w.clearSubtree p).counter q := by
  rw [counter_clearSubtree, counter_clearSubtree]
  split_ifs with h0
  · rfl
  · rcases hq with hq | hq
    · exact absurd (.inl hq.symm) h0
    · exact h q hq

theorem EarlyAndLate.sameFinished_fired {ended : Bool} (h : SameFinished w w') :
    SameFinished (c.fired ended w) (c.fired ended w') := by
  intro q
  unfold EarlyAndLate.fired
  rw [h .early]
  split_ifs
  · rcases c.late with _ | t
    · simp only [WindowState.finished_setFinished, h q]
    · simp only [WindowState.finished_setFinished, WindowState.finished_clearSubtree, h q]
  · rcases c.late with _ | t
    · simp only [WindowState.finished_setFinished, WindowState.finished_clearSubtree, h q]
    · simp only [WindowState.finished_setFinished, WindowState.finished_clearSubtree, h q]
  · simp only [WindowState.finished_setFinished, WindowState.finished_clearSubtree, h q]

namespace EarlyAndLate

variable {ended : Bool} {q : Position}

theorem counter_fired_before (he : w.finished .early = false) (he' : w'.finished .early = false)
    (h : ∀ q, q ≠ .early ∧ (c.late = none ∨ q ≠ .late) → w'.counter q = w.counter q)
    (hq : c.late = none ∨ q ≠ .late) :
    (c.fired false w').counter q = (c.fired false w).counter q := by
  have hq' : q = .early ∨ q ≠ .early ∧ (c.late = none ∨ q ≠ .late) := by
    by_cases hqe : q = .early
    · exact .inl hqe
    · exact .inr ⟨hqe, hq⟩
  unfold fired
  simp only [he, he', Bool.false_eq_true, if_false, WindowState.counter_setFinished]
  exact WindowState.counter_clearSubtree_congr h hq'

/-- At its end a window forgets both counters. -/
theorem counter_fired_at_end (he : w.finished .early = false) (he' : w'.finished .early = false)
    (h : ∀ q, q ≠ .early ∧ (c.late = none ∨ q ≠ .late) → w'.counter q = w.counter q) :
    (c.fired true w').counter q = (c.fired true w).counter q := by
  have cleared : ∀ q, c.late = none ∨ q ≠ .late →
      ((w'.setFinished .early true).clearSubtree .early).counter q =
        ((w.setFinished .early true).clearSubtree .early).counter q := by
    intro q hq
    refine WindowState.counter_clearSubtree_congr
      (D := fun q => q ≠ .early ∧ (c.late = none ∨ q ≠ .late)) (fun q hq => ?_) ?_
    · simp only [WindowState.counter_setFinished]
      exact h q hq
    · by_cases hqe : q = .early
      · exact .inl hqe
      · exact .inr ⟨hqe, hq⟩
  unfold fired
  simp only [he, he', Bool.false_eq_true, if_false, if_true]
  rcases hc : c.late with _ | t
  · simp only [WindowState.counter_setFinished]
    exact cleared q (.inl hc)
  · exact WindowState.counter_clearSubtree_congr (fun q hq => cleared q (.inr hq))
      (eq_or_ne q .late)

theorem counter_fired_after {t : OnceTrigger κ} (hc : c.late = some t)
    (he : w.finished .early = true) (he' : w'.finished .early = true)
    (h : ∀ q, q ≠ .late ∧ q ≠ .early → w'.counter q = w.counter q) (hq : q ≠ .early) :
    (c.fired ended w').counter q = (c.fired ended w).counter q := by
  have hq' : q = .late ∨ q ≠ .late ∧ q ≠ .early := by
    by_cases hql : q = .late
    · exact .inl hql
    · exact .inr ⟨hql, hq⟩
  unfold fired
  simp only [he, he', hc, if_true, WindowState.counter_setFinished]
  exact WindowState.counter_clearSubtree_congr h hq'

end EarlyAndLate

/-- A firing clears the counter of the child that fires, and at the end of the window that of the
child whose turn comes, which may have counted along. -/
theorem Twin.fired {w₁ w₁' : WindowState} {ended : Bool} (h : Twin c w w')
    (h₁ : LeftBy c (active w) w w₁) (h₁' : LeftBy c (active w) w' w₁') :
    Twin c (c.fired ended w₁) (c.fired ended w₁') := by
  have hs : SameFinished w w₁ := h₁.1.sameFinished
  have hs' : SameFinished w₁ w₁' := fun q => by
    rw [h₁'.1.sameFinished q, h.finished q, hs q]
  have others : ∀ q, q ≠ active w ∧ (c.late = none ∨ q ≠ w.idle) →
      w₁'.counter q = w₁.counter q := fun q hq => by
    rw [h₁.1.counter_other hq.1.symm, h₁'.1.counter_other hq.1.symm, h.counter q hq.2]
  refine ⟨sameFinished_fired hs', fun q hq => ?_⟩
  unfold WindowState.idle at hq
  rw [finished_early_fired, hs] at hq
  rcases he : w.finished .early
  · have hactive : active w = .early := by simp [active, he]
    have hidle : w.idle = .late := by simp [WindowState.idle, he]
    have he₁ : w₁.finished .early = false := by rw [hs, he]
    have he₁' : w₁'.finished .early = false := by rw [hs', he₁]
    rw [hactive, hidle] at others
    cases ended with
    | false => exact counter_fired_before he₁ he₁' others (by simpa [he] using hq)
    | true => exact counter_fired_at_end he₁ he₁' others
  · have hactive : active w = .late := by simp [active, he]
    have hidle : w.idle = .early := by simp [WindowState.idle, he]
    have he₁ : w₁.finished .early = true := by rw [hs, he]
    have he₁' : w₁'.finished .early = true := by rw [hs', he₁]
    rcases hc : c.late with _ | t
    · have hroot : ∀ a : WindowState, a.finished .early = true →
          (c.fired ended a).counter q = a.counter q := by
        intro a ha
        unfold EarlyAndLate.fired
        simp only [ha, hc, if_true, WindowState.counter_setFinished]
      rw [hroot _ he₁, hroot _ he₁', h₁.2 hc hactive, h₁'.2 hc hactive]
      exact h.counter q (.inl hc)
    · rw [hactive, hidle] at others
      refine counter_fired_after hc he₁ he₁' (fun q hq => others q ⟨hq.1, .inr hq.2⟩) ?_
      simpa [he, hc] using hq

variable [CustomTrigger κ] {s : Scope} {m : Bool}

namespace Leaf

variable {l : Leaf κ}

theorem ready_congr (hl : l.trigger.IfCustom Discreet) (h : SameView l.position w w') :
    l.ready (s.withMerging m) w' = l.ready s w := by
  obtain ⟨p, trigger⟩ := l
  cases trigger with
  | endOfWindow => rfl
  | never => rfl
  | custom k => exact hl.secluded.shouldFire (site ⟨p, .custom k⟩ s) m w w' h

variable (t : Timestamp) (ws : List Window)

theorem onElement_still (hl : l.trigger.Builtin) (hs : s.Open) (q : Progress κ) :
    ∃ q', l.onElement s t ws q = .ok () q' ∧ q'.state = q.state := by
  have hk : l.trigger.IfCustom fun k => HookDoes (fun w w' => w' = w) False
      (CustomTrigger.onElement k (l.site s) t ws) := by
    obtain ⟨p, trigger⟩ := l
    cases trigger with
    | endOfWindow => trivial
    | never => trivial
    | custom k => exact hl.elim
  obtain ⟨_, q', hq, hstate⟩ := (onElement_ensures (A := fun _ w w' => w' = w) (fun _ _ => rfl)
    hs t ws hk).returns (fun _ _ h => h) (s := q) rfl
  exact ⟨q', hq, hstate⟩

variable {t ws} in
theorem onElement_custom {k : κ} {q : Progress κ} {d : Draft}
    (hd : CustomTrigger.onElement k (site ⟨p, .custom k⟩ s) t ws { state := q.state } = .ok () d) :
    ∃ q', onElement ⟨p, .custom k⟩ s t ws q = .ok () q' ∧ q'.state = d.state := by
  let i : Site := site ⟨p, .custom k⟩ s
  let q₁ : Progress κ := { q with calls := q.calls ++ [⟨k, i, .element t ws, q.state⟩] }
  have hhook : hook (CustomTrigger.onElement k i t ws) q₁ =
      .ok () { q₁ with state := d.state, timers := q₁.timers ++ d.timers } := by
    unfold hook
    rw [show CustomTrigger.onElement k i t ws { state := q₁.state } = .ok () d from hd]
  exact ⟨_, (bind_of_ok rfl).trans ((bind_of_ok rfl).trans hhook), rfl⟩

/-- In states that look alike from a leaf, it counts alike. -/
theorem onElement_matches (hl : l.trigger.IfCustom Discreet) (hs : s.Open)
    (h : SameView l.position w w') :
    Matches (fun q q' => q.state = w ∧ q'.state = w') (l.onElement s t ws)
      (l.onElement (s.withMerging m) t ws) fun q q' => ∃ n,
        q.state = w.setCounter l.position n ∧ q'.state = w'.setCounter l.position n := by
  intro q q' hq
  obtain ⟨rfl, rfl⟩ := hq
  have builtin : l.trigger.Builtin → ∃ a r r', l.onElement s t ws q = .ok a r ∧
      l.onElement (s.withMerging m) t ws q' = .ok a r' ∧ ∃ n,
        r.state = q.state.setCounter l.position n ∧
        r'.state = q'.state.setCounter l.position n := by
    intro hb
    obtain ⟨r, hr, hrs⟩ := onElement_still t ws hb hs q
    obtain ⟨r', hr', hrs'⟩ := onElement_still (s := s.withMerging m) t ws hb hs q'
    refine ⟨(), r, r', hr, hr', q.state.counter l.position, ?_, ?_⟩
    · rw [hrs, WindowState.setCounter_self]
    · rw [hrs', ← h.2, WindowState.setCounter_self]
  obtain ⟨p, trigger⟩ := l
  cases trigger with
  | endOfWindow => exact builtin trivial
  | never => exact builtin trivial
  | custom k =>
    have hk : Discreet k := hl
    let i : Site := site ⟨p, .custom k⟩ s
    obtain ⟨d, hd⟩ := hk.returns.onElement i t ws { state := q.state } hs
    obtain ⟨d', hd'⟩ := hk.returns.onElement (i.withMerging m) t ws { state := q'.state } hs
    obtain ⟨n, hn⟩ := hk.own.onElement i t ws _ _ hd
    obtain ⟨n', hn'⟩ := hk.own.onElement (i.withMerging m) t ws _ _ hd'
    have hcount := hk.secluded.onElement i m t ws _ _ _ _ h hd hd'
    have hnn : n' = n := by
      rw [hn, hn'] at hcount
      simpa [WindowState.counter_setCounter, i, Site.withMerging] using hcount
    obtain ⟨r, hr, hrs⟩ := onElement_custom hd
    obtain ⟨r', hr', hrs'⟩ := onElement_custom (s := s.withMerging m) hd'
    refine ⟨(), r, r', hr, hr', n, ?_, ?_⟩
    · rw [hrs, hn]
      rfl
    · rw [hrs', hn', hnn]
      rfl

theorem onElement_counts (hl : l.trigger.IfCustom Discreet) (hs : s.Open) (q : Progress κ) :
    ∃ q' n, l.onElement s t ws q = .ok () q' ∧ q'.state = q.state.setCounter l.position n := by
  have hk : l.trigger.IfCustom fun k => HookDoes (CounterAt l.position) False
      (CustomTrigger.onElement k (l.site s) t ws) :=
    hl.mono fun k hk => hk.modest.onElement hs t ws
  obtain ⟨_, q', hq, n, hn⟩ :=
    (onElement_ensures (fun _ _ => CounterAt.refl _ _) hs t ws hk).returns (fun _ _ h => h)
      (s := q) rfl
  exact ⟨q', n, hq, hn⟩

end Leaf

namespace EarlyAndLate

theorem ready_twin (hc : c.Customs Discreet) (h : Twin c w w') :
    (Node.root (.earlyAndLate c)).ready (s.withMerging m) w' =
      (Node.root (.earlyAndLate c)).ready s w := by
  rcases he : w.finished .early
  · have hview : SameView Position.early w w' := h.view (.inr (by simp [WindowState.idle, he]))
    rw [ready_of_early he, ready_of_early ((h.finished _).trans he),
      Leaf.ready_congr hc.early hview]
    rfl
  · have hview : SameView Position.late w w' := h.view (.inr (by simp [WindowState.idle, he]))
    rw [ready_of_late he, ready_of_late ((h.finished _).trans he)]
    rcases hl : c.late with _ | t
    · rfl
    · exact Leaf.ready_congr (l := ⟨.late, t⟩) (hc.late t hl) hview

variable (t : Timestamp) (ws : List Window)

theorem onElement_active (hm : s.merging = false) {l : Leaf κ} {q : Progress κ}
    (hl : (Node.root (.earlyAndLate c)).firstUnfinished? q.state = .ok l) :
    (Node.root (.earlyAndLate c)).onElement s t ws q = l.onElement s t ws q := by
  have hneg : ¬s.merging = true := by simp [hm]
  have hl' : (⟨.root, .earlyAndLate c⟩ : Node κ).firstUnfinished? q.state = .ok l := hl
  unfold Node.onElement
  dsimp only [Node.root]
  rw [if_neg hneg]
  refine (bind_of_ok rfl).trans ?_
  rw [hl']

theorem onElement_every : (Node.root (.earlyAndLate c)).onElement (s.withMerging true) t ws =
    (Node.root (.earlyAndLate c)).leaves.forM fun l => l.onElement (s.withMerging true) t ws := by
  unfold Node.onElement
  exact if_pos rfl

/-- In the early phase the late child may count along. -/
theorem onElement_early (hc : c.Customs Discreet) (hs : s.Open) (hm : s.merging = false)
    (he : w.finished .early = false) (h : Twin c w w') :
    Matches (fun q q' => q.state = w ∧ q'.state = w')
      ((Node.root (.earlyAndLate c)).onElement s t ws)
      ((Node.root (.earlyAndLate c)).onElement (s.withMerging true) t ws)
      fun q q' => Twin c q.state q'.state := by
  intro q q' hq
  have hidle : w.idle = .late := by simp [WindowState.idle, he]
  have hview : SameView (c.earlyAt .root).position w w' :=
    h.view (p := .early) (.inr (by simp [hidle]))
  obtain ⟨_, r, r', hr, hr', n, hn, hn'⟩ := Leaf.onElement_matches (m := true)
    (l := c.earlyAt .root) t ws hc.early hs hview q q' hq
  have htwin : Twin c r.state r'.state := by
    rw [hn, hn']
    exact h.setCounter
  have hactive := onElement_active (c := c) (q := q) t ws hm
    (firstUnfinished_of_early (by rw [hq.1, he]))
  rw [onElement_every, hactive]
  rcases hl : c.late with _ | t'
  · rw [leaves_alone hl]
    exact ⟨(), r, r', hr, bind_of_ok hr', htwin⟩
  · rw [leaves_pair hl]
    obtain ⟨u, n', hu, hn''⟩ := Leaf.onElement_counts (s := s.withMerging true) (l := ⟨.late, t'⟩)
      t ws (hc.late t' hl) hs r'
    have hidle' : r.state.idle = .late := by rw [hn, Twin.idle_setCounter, hidle]
    have htwin' : Twin c r.state u.state := by
      rw [hn'', ← hidle']
      exact htwin.setCounter_idle (by simp [hl])
    exact ⟨(), r, u, hr, (bind_of_ok hr').trans (bind_of_ok hu), htwin'⟩

/-- In the late phase the early child may count along. -/
theorem onElement_late (hc : c.Customs Discreet) (hs : s.Open) (hm : s.merging = false)
    (he : w.finished .early = true) (hlate : c.late ≠ none) (hdone : w.finished .late = false)
    (h : Twin c w w') :
    Matches (fun q q' => q.state = w ∧ q'.state = w')
      ((Node.root (.earlyAndLate c)).onElement s t ws)
      ((Node.root (.earlyAndLate c)).onElement (s.withMerging true) t ws)
      fun q q' => Twin c q.state q'.state := by
  intro q q' hq
  have hidle : w.idle = .early := by simp [WindowState.idle, he]
  obtain ⟨t', hl⟩ := Option.ne_none_iff_exists'.1 hlate
  obtain ⟨u, n, hu, hn⟩ := Leaf.onElement_counts (s := s.withMerging true) (l := c.earlyAt .root)
    t ws hc.early hs q'
  have htwin : Twin c w u.state := by
    rw [hn, hq.2, show (c.earlyAt .root).position = w.idle from hidle.symm]
    exact h.setCounter_idle hlate
  obtain ⟨_, r, r', hr, hr', n', hn', hn''⟩ := Leaf.onElement_matches (m := true)
    (l := ⟨.late, t'⟩) t ws (hc.late t' hl) hs (htwin.view (.inr (by simp [hidle]))) q u
    ⟨hq.1, rfl⟩
  have htwin' : Twin c r.state r'.state := by
    rw [hn', hn'']
    exact htwin.setCounter
  have hactive := onElement_active (c := c) (q := q) t ws hm
    (firstUnfinished_of_late hl (by rw [hq.1, he]) (by rw [hq.1, hdone]))
  rw [onElement_every, hactive, leaves_pair hl]
  exact ⟨(), r, r', hr, (bind_of_ok hu).trans (bind_of_ok hr'), htwin'⟩

/-- Fed in either way, twins stay twins, and an element finds the child whose turn it is. -/
theorem onElement_matches (hc : c.Customs Discreet) (hs : s.Open) (hm : s.merging = false)
    (hw : c.HasOpenChild w) (h : Twin c w w') :
    Matches (fun q q' => q.state = w ∧ q'.state = w')
      ((Node.root (.earlyAndLate c)).onElement s t ws)
      ((Node.root (.earlyAndLate c)).onElement (s.withMerging true) t ws)
      fun q q' => Twin c q.state q'.state := by
  rcases he : w.finished .early
  · exact onElement_early t ws hc hs hm he h
  · obtain ⟨hlate, hdone⟩ := hw.resolve_left (by simp [he])
    exact onElement_late t ws hc hs hm he hlate hdone h

theorem onFire_leftBy (hc : c.Customs Discreet) (hs : s.Open) (q : Progress κ) : ∃ q' w₁,
    (Node.root (.earlyAndLate c)).onFire s q = .ok () q' ∧
      LeftBy c (active q.state) q.state w₁ ∧ q'.state = c.fired s.ended w₁ := by
  have hfire : ∀ l ∈ (Node.root (.earlyAndLate c)).leaves, l.trigger.IfCustom fun k =>
      HookDoes (LeftBy c l.position) False (CustomTrigger.onOnlyFiring k (l.site s)) := by
    intro l hl
    have alone : c.late = none → l.position ≠ .late := by
      intro hn
      rw [leaves_alone hn, List.mem_singleton] at hl
      rw [hl]
      exact Position.early_ne_late
    refine (hc.leaves l hl).mono fun k hk => .of_ok (fun d d' hd => ?_)
      (.inr fun d => hk.returns.onOnlyFiring _ d hs)
    exact ⟨hk.own.onOnlyFiring _ _ _ hd, fun hn hp => absurd hp (alone hn)⟩
  have hask : ∀ l ∈ (Node.root (.earlyAndLate c)).leaves, l.trigger.IfCustom fun k =>
      ∀ w e, CustomTrigger.shouldFire k (l.site s) w = .error e → False := fun l hl =>
    (hc.leaves l hl).mono fun k hk _ _ => hk.modest.shouldFire hs
  obtain ⟨_, q', hq, w₁, h₁, hw⟩ := (onFire_ensures LeftBy.refl (fun _ _ _ h => h.1.sameFinished)
    hfire hask).returns (fun _ _ h => h) (s := q) rfl
  exact ⟨q', w₁, hq, h₁, hw⟩

theorem onFire_matches (hc : c.Customs Discreet) (hs : s.Open) (h : Twin c w w') :
    Matches (fun q q' => q.state = w ∧ q'.state = w') ((Node.root (.earlyAndLate c)).onFire s)
      ((Node.root (.earlyAndLate c)).onFire (s.withMerging m))
      fun q q' => Twin c q.state q'.state := by
  intro q q' hq
  obtain ⟨r, w₁, hr, h₁, hw⟩ := onFire_leftBy hc hs q
  obtain ⟨r', w₁', hr', h₁', hw'⟩ := onFire_leftBy (s := s.withMerging m) hc hs q'
  have hactive : active w' = active w := by
    unfold active
    rw [h.finished]
  rw [hq.1] at h₁
  rw [hq.2, hactive] at h₁'
  have htwin : Twin c r.state r'.state := by
    rw [hw, hw']
    exact h.fired h₁ h₁'
  exact ⟨(), r, r', hr, hr', htwin⟩

end EarlyAndLate

end PaneTriggers
