import PaneTriggers.Proofs.TickInvariant

/-!
# The pane at the end of a window

A runner over a punctual tree that is driven by ticks delivers the pane at the end of every active
window, and only once. A window that had it, or was collected after it, is settled for good: it is
not woken for the end again, and its elements are late or dropped (`settled`). The panes of one
window are counted try by try (`endPanes`), and each counted try settles the window, so that there
is at most one.
-/

namespace PaneTriggers

/-- What drives a runner by ticks: elements, merges of some sources, ticks and collections. -/
def Operation.Timely : Operation → Prop
  | .element _ _ | .tick _ | .collect => True
  | .merge ws _ => ws ≠ []
  | _ => False

/-- The operation merges the window away, or other windows into it. -/
def Operation.Merges (w : Window) : Operation → Prop
  | .merge ws d => w ∈ ws ∨ w = d
  | _ => False

namespace Runner

variable {κ σ : Type} [CustomTrigger κ]

/-- The window had its pane at the end, or was collected after it. -/
def settled (v : Seen κ) (w : Window) : Bool :=
  v.endFired w || (decide (w ∉ v.active) && v.expired w)

section Panes

variable [StateStore σ] [LawfulStore σ]

/-- Trying the window now delivers the pane at its end. -/
def deliversEnd (r : Runner κ σ) (w : Window) : Bool :=
  w.endedBy r.watermark && !r.seen.endFired w &&
    match (r.step (.fireIfReady w)).1 with
    | .ok (.outcome (.fired _)) => true
    | _ => false

/-- How often the pane at the end of `w` is delivered while windows are tried in turn. -/
def endPanesOf (w : Window) : Runner κ σ → List Window → Nat
  | _, [] => 0
  | r, u :: us =>
    (if u = w ∧ r.deliversEnd u = true then 1 else 0) +
      endPanesOf w (r.step (.fireIfReady u)).2 us

/-- How often the pane at the end of `w` is delivered by an operation of a runner that is driven by
ticks. -/
def endPanesIn (w : Window) (r : Runner κ σ) : Operation → Nat
  | .tick now => endPanesOf w (r.advance now).2 (r.advance now).1
  | _ => 0

/-- How often the pane at the end of `w` is delivered in a run. -/
def endPanes (w : Window) : Runner κ σ → List Operation → Nat
  | _, [] => 0
  | r, op :: ops => r.endPanesIn w op + endPanes w (r.step op).2 ops

end Panes

variable {t : Trigger κ} {v v' : Seen κ} {w : Window}

theorem settled_mono (h : v.settled w = true → v'.settled w = true) :
    (v.settled w).toNat ≤ (v'.settled w).toNat := by
  cases hs : v.settled w
  · exact Nat.zero_le _
  · exact Nat.le_of_eq (by rw [h hs])

theorem settled_iff : v.settled w = true ↔
    v.endFired w = true ∨ w ∉ v.active ∧ v.expired w = true := by
  simp [settled]

theorem expired_advance (now : Timestamp) (h : v.expired w = true) :
    (v.advance now).2.expired w = true := by
  have hg : (v.advance now).2.guarantee w = v.guarantee w ∧
      (v.advance now).2.allowedLateness = v.allowedLateness := by
    obtain ⟨-, ha⟩ | ⟨-, ha⟩ := v.advance_cases now <;> rw [ha] <;> exact ⟨rfl, rfl⟩
  rw [expired_iff] at h ⊢
  rw [hg.1, hg.2]
  exact passed_advance h

theorem settled_advance (now : Timestamp) (h : v.settled w = true) :
    (v.advance now).2.settled w = true := by
  rw [settled_iff] at h ⊢
  rw [advance_active, endFired_congr (v.advance_root now) (by rw [advance_store])]
  exact h.imp_right fun h => ⟨h.1, expired_advance now h.2⟩

section Trying

variable [StateStore σ] [LawfulStore σ]

/-- Trying a window over a punctual tree: it is not ready, or it is fired. -/
theorem try_ensures (ht : t.Punctual) (hF : ¬LawfulStore.Faulty σ) (hs : Sound t v) :
    Ensures (fun r : Runner κ σ => r.seen = v) (fireIfReady w)
      (fun o r => v.readiness w = .ok false ∧ o = .notReady ∧ r.seen = v ∨
        ∃ p, Sound t (v.fired w p) ∧
          p.state.finished t.endNode = (v.endFired w || w.endedBy v.watermark) ∧
          r.seen = v.fired w p) fun _ _ => False := by
  refine fireIfReady_ensures.mono (fun _ h => h) ?_ ?_
  · intro o r hx
    rcases hx with ⟨hr, ho, hv⟩ | ⟨hr, p, hp, -, hv⟩
    · exact .inl ⟨hr, ho, hv⟩
    · obtain ⟨hs', hbit⟩ := (ht.firing hs hr).of_ok rfl hp
      exact .inr ⟨p, hs', hbit, hv⟩
  · intro _ r hx
    rcases hx with ⟨hf | ⟨e, he⟩ | ⟨hr, e, p, hp⟩, -⟩
    · exact hF hf
    · exact ht.invariant.ready v w hs e he
    · exact (ht.firing hs hr).of_error rfl hp

/-- One try in a tick keeps to the invariant, and settles the window whose pane it delivers. -/
theorem try_step (ht : t.Punctual) (hF : ¬LawfulStore.Faulty σ) {r : Runner κ σ} {u : Window}
    {us : List Window} (hs : Sound t r.seen) (h : Ticking (u :: us) r.seen) :
    let r' := (r.step (.fireIfReady u)).2
    Sound t r'.seen ∧ Ticking us r'.seen ∧ r'.watermark = r.watermark ∧
      (if u = w ∧ r.deliversEnd u = true then 1 else 0) + (r.seen.settled w).toNat ≤
        (r'.seen.settled w).toNat := by
  intro r'
  obtain ⟨o, r₁, hr₁, ho⟩ := (try_ensures (w := u) ht hF hs).returns (fun _ _ h => h) rfl
  have hstep : r.step (.fireIfReady u) = (.ok (.outcome o), r₁) := step_of_ok (bind_of_ok hr₁)
  have hr' : r' = r₁ := by
    show (r.step (.fireIfReady u)).2 = r₁
    rw [hstep]
  rw [hr']
  rcases ho with ⟨hready, rfl, hv⟩ | ⟨p, hs', hp, hv⟩
  · have hno : r.deliversEnd u = false := by
      unfold deliversEnd
      rw [hstep]
      simp
    have hwm : r₁.seen.watermark = r.seen.watermark := by rw [hv]
    rw [hv]
    refine ⟨hs, h.skip ht hs hready, hwm, ?_⟩
    simp [hno]
  · have hwm : r₁.seen.watermark = r.seen.watermark := by rw [hv, fired_watermark]
    rw [hv]
    refine ⟨hs', h.fire hs hp, hwm, ?_⟩
    have hf := endFired_fired hs hp w
    have hkeep : r.seen.settled w = true → (r.seen.fired u p).settled w = true := by
      rw [settled_iff, settled_iff, hf, fired_active]
      have he : (r.seen.fired u p).expired w = r.seen.expired w := by
        unfold expired guarantee
        rw [fired_watermark, fired_root, fired_allowedLateness]
      rw [he]
      intro hx
      rcases hx with hd | hd
      · split_ifs with huw
        · rw [← huw, hd]
          exact .inl rfl
        · exact .inl hd
      · exact .inr hd
    by_cases hd : u = w ∧ r.deliversEnd u = true
    · -- A try that counts finds the window active and its end not fired, and marks it.
      obtain ⟨rfl, hd⟩ := hd
      unfold deliversEnd at hd
      simp only [Bool.and_eq_true, Bool.not_eq_true'] at hd
      obtain ⟨⟨hend, hnot⟩, -⟩ := hd
      have hend : u.endedBy r.seen.watermark = true := hend
      have hbefore : r.seen.settled u = false := by
        have hact := h.tried u List.mem_cons_self
        unfold settled
        simp [hnot, hact]
      have hafter : (r.seen.fired u p).settled u = true := by
        rw [settled_iff, hf, if_pos rfl, hend, Bool.or_true]
        exact .inl rfl
      rw [hbefore, hafter]
      split_ifs <;> simp
    · rw [if_neg hd, Nat.zero_add]
      exact settled_mono hkeep

theorem tries_run (ht : t.Punctual) (hF : ¬LawfulStore.Faulty σ) : ∀ {us : List Window}
    {r : Runner κ σ}, Sound t r.seen → Ticking us r.seen →
    let r' := r.run (us.map .fireIfReady)
    Sound t r'.seen ∧ Ticking [] r'.seen ∧ r'.watermark = r.watermark ∧
      endPanesOf w r us + (r.seen.settled w).toNat ≤ (r'.seen.settled w).toNat
  | [], r, hs, h => ⟨hs, h, rfl, by simp [endPanesOf, run]⟩
  | u :: us, r, hs, h => by
    obtain ⟨hs₁, h₁, hwm₁, hle₁⟩ := try_step (w := w) ht hF hs h
    obtain ⟨hs₂, h₂, hwm₂, hle₂⟩ := tries_run ht hF hs₁ h₁
    have hrun : r.run ((u :: us).map .fireIfReady) =
        (r.step (.fireIfReady u)).2.run (us.map .fireIfReady) := rfl
    rw [hrun]
    refine ⟨hs₂, h₂, hwm₂.trans hwm₁, ?_⟩
    rw [endPanesOf]
    omega

/-- A tick tends the windows again, and settles the window whose pane it delivers. -/
theorem tick_step (ht : t.Punctual) (hF : ¬LawfulStore.Faulty σ) {r : Runner κ σ} (now : Timestamp)
    (hs : Sound t r.seen) (h : Tended r.seen) :
    let r' := (r.step (.tick now)).2
    Sound t r'.seen ∧ Tended r'.seen ∧
      r.endPanesIn w (.tick now) + (r.seen.settled w).toNat ≤ (r'.seen.settled w).toNat ∧
      ((∀ m, r.watermark = some m → m < now) → Ticking [] r'.seen ∧ r'.watermark = some now) := by
  intro r'
  have hr' : r' = (r.advance now).2.run ((r.advance now).1.map .fireIfReady) := step_tick now r
  rw [hr']
  obtain ⟨⟨m, hm, hle⟩, ha⟩ | ⟨hlater, ha⟩ := r.advance_cases now
  · have hpanes : r.endPanesIn w (.tick now) = 0 := by
      show endPanesOf w (r.advance now).2 (r.advance now).1 = 0
      rw [ha]
      rfl
    rw [hpanes, ha]
    refine ⟨hs, h, by simp [run], fun hlt => ?_⟩
    have := hlt m hm
    rw [Timestamp.lt_iff] at this
    rw [Timestamp.le_iff] at hle
    omega
  · obtain ⟨hw₁, hv₁⟩ := seen_advance now r
    have hs₁ : Sound t (r.advance now).2.seen := by
      rw [← hv₁]
      exact hs.advance now
    have h₁ : Ticking (r.advance now).1 (r.advance now).2.seen := by
      rw [← hv₁, ← hw₁]
      exact h.advance hs hlater
    obtain ⟨hs₂, h₂, hwm, hle⟩ := tries_run (w := w) ht hF hs₁ h₁
    have hadv : (r.seen.settled w).toNat ≤ ((r.advance now).2.seen.settled w).toNat := by
      rw [← hv₁]
      exact settled_mono (settled_advance now)
    refine ⟨hs₂, h₂.tended, ?_, fun _ => ⟨h₂, hwm.trans (by rw [ha])⟩⟩
    have hpanes : r.endPanesIn w (.tick now) = endPanesOf w (r.advance now).2 (r.advance now).1 :=
      rfl
    omega

theorem tended_step (ht : t.Punctual) (hF : ¬LawfulStore.Faulty σ) {r : Runner κ σ}
    {op : Operation} (hop : op.Timely) (h : Sound t r.seen ∧ Tended r.seen) :
    Sound t (r.step op).2.seen ∧ Tended (r.step op).2.seen := by
  have keep : op.HasSources → ¬op.Fires → (∀ now, op ≠ .advance now) →
      Sound t (r.step op).2.seen ∧ Tended (r.step op).2.seen := by
    intro hsrc hno hadv
    refine step_ensures (J := fun r => Sound t r.seen ∧ Tended r.seen)
      (K := fun r => Sound t r.seen ∧ Tended r.seen) ?_ h
    refine ((tended_invariant ht).perform_keeps hF hsrc (fun hf => absurd hf hno) ?_).onFail
      fun _ _ h => h.2
    intro now hx
    rcases hx with rfl | rfl
    · exact absurd rfl (hadv now)
    · exact absurd trivial hno
  cases op with
  | element ws at' => exact keep trivial id (by simp)
  | merge ws d => exact keep hop id (by simp)
  | collect => exact keep trivial id (by simp)
  | tick now =>
    obtain ⟨hs, ht', -⟩ := tick_step (w := ⟨.least, .least⟩) ht hF now h.1 h.2
    exact ⟨hs, ht'⟩
  | _ => exact hop.elim

theorem tended_run (ht : t.Punctual) (hF : ¬LawfulStore.Faulty σ) : ∀ (ops : List Operation)
    {r : Runner κ σ}, (∀ op ∈ ops, op.Timely) → Sound t r.seen ∧ Tended r.seen →
    Sound t (r.run ops).seen ∧ Tended (r.run ops).seen
  | [], _, _, h => h
  | _ :: ops, _, hops, h => tended_run ht hF ops
      (fun op hop => hops op (List.mem_cons_of_mem _ hop))
      (tended_step ht hF (hops _ List.mem_cons_self) h)

/-- Elements leave a window settled: they are late or dropped. -/
theorem settled_element (ht : t.Punctual) (hF : ¬LawfulStore.Faulty σ) {ws : List Window}
    {at' : Timestamp} :
    Ensures (fun r : Runner κ σ => Sound t r.seen ∧ r.seen.settled w = true)
      (processElement ws at') (fun _ r => Sound t r.seen ∧ r.seen.settled w = true)
      fun _ _ => False := by
  refine .forM fun u _ => .of_each (f := seen) (G := fun v => Sound t v ∧ v.settled w = true)
    fun v hv => deliver_ensures.mono (fun _ h => h) ?_ ?_
  · intro _ r hx
    rcases hx with ⟨reason, -, hr⟩ | ⟨hn, p, hp, hr⟩
    · rw [hr]
      exact ⟨ht.invariant.drop v u reason hv.1, hv.2⟩
    · rw [hr]
      refine ⟨(ht.invariant.element v ws at' u hv.1 hn).of_ok rfl hp, ?_⟩
      have hbit := (ht.taking hv.1 hn).of_ok rfl hp
      have hset := settled_iff.1 hv.2
      rw [settled_iff]
      by_cases huw : w = u
      · -- The window takes the element, so it is not expired, and must have had its pane.
        subst huw
        have hlate : v.expired w = false := by
          unfold dropReason? at hn
          by_contra he
          rw [Bool.not_eq_false] at he
          rw [if_pos he] at hn
          cases hn
        have hf := hset.resolve_right fun h => by
          rw [hlate] at h
          cases h.2
        refine .inl ?_
        unfold endFired
        rw [show (v.accepted at' w p).store = v.store.put w p.state from rfl, Contents.put_same,
          show (v.accepted at' w p).root = v.root from rfl, hv.1.root_eq]
        exact hbit.trans hf
      · have hf : (v.accepted at' u p).endFired w = v.endFired w :=
          endFired_congr rfl (Contents.put_other _ _ huw)
        rw [hf]
        refine hset.imp_right fun h => ⟨fun ha => ?_, h.2⟩
        exact h.1 ((mem_active_insert.1 ha).resolve_left huw)
  · intro _ r hx
    rcases hx with ⟨hf | ⟨hn, e, p, hp⟩, -⟩
    · exact hF hf
    · exact (ht.taking hv.1 hn).of_error rfl hp

/-- A merge that does not touch a window leaves it settled. -/
theorem settled_merged {ws : List Window} {d : Window} {p : Progress κ} (hws : w ∉ ws)
    (hd : w ≠ d) (h : v.settled w = true) : (v.merged ws d p).settled w = true := by
  have hf : (v.merged ws d p).endFired w = v.endFired w := by
    refine endFired_congr merged_root ?_
    rw [merged_store]
    exact (if_neg hd).trans (if_neg hws)
  have he : (v.merged ws d p).expired w = v.expired w := by
    unfold expired guarantee
    rw [merged_watermark, merged_root, merged_allowedLateness]
  rw [settled_iff, hf, he]
  refine (settled_iff.1 h).imp_right fun h => ⟨fun ha => ?_, h.2⟩
  exact h.1 ((mem_merged_active.1 ha).resolve_left hd).1

/-- A collected window is settled from then on, and the others are as settled as they were. -/
theorem settled_collected {us : List Window} (hus : ∀ u ∈ us, v.expired u = true)
    (h : v.settled w = true) : (us.foldl collected v).settled w = true := by
  obtain ⟨q, a, l, hc, -, ha⟩ := foldl_collected us v
  have hact : w ∈ (us.foldl collected v).active ↔ w ∈ v.active ∧ w ∉ us := by
    rw [hc]
    exact ha w
  have he : (us.foldl collected v).expired w = v.expired w := by
    rw [hc]
    rfl
  rw [settled_iff, he, hact]
  by_cases hw : w ∈ us
  · exact .inr ⟨fun hm => hm.2 hw, hus w hw⟩
  · have hf : (us.foldl collected v).endFired w = v.endFired w := by
      refine endFired_congr (by rw [hc]) ?_
      rw [hc]
      exact if_neg hw
    rw [hf]
    exact (settled_iff.1 h).imp_right fun h => ⟨fun hm => h.1 hm.1, h.2⟩

/-- Collections do not fail, and collect only windows that are past their lateness. -/
theorem collect_step (ht : t.Punctual) (hF : ¬LawfulStore.Faulty σ) {r : Runner κ σ}
    (hs : Sound t r.seen) : ∃ us r', r.step .collect = (.ok (.windows us), r') ∧
      r'.seen = us.foldl collected r.seen ∧ ∀ u ∈ us, u ∈ r.active ∧
        r.seen.expired u = true ∧ r.seen.readiness u = .ok false := by
  have hno : ∀ (e : RunnerError) (r' : Runner κ σ),
      ¬(LawfulStore.Faulty σ ∨ ∃ w, ∃ e, r.seen.readiness w = .error e) := by
    intro e r' h
    rcases h with hf | ⟨u, e, he⟩
    · exact hF hf
    · exact ht.invariant.ready r.seen u hs e he
  obtain ⟨us, r', hr', rfl, hv⟩ := (garbageCollect_ensures (v := r.seen)).returns hno rfl
  refine ⟨_, r', step_of_ok (bind_of_ok hr'), hv, fun u hu => ?_⟩
  simp only [List.mem_filter, Std.ExtTreeSet.mem_toList] at hu
  exact ⟨hu.1.1, hu.1.2, idle_iff.1 hu.2⟩

/-- An operation that does not merge `w` delivers its pane at most once, and not if it is settled;
once delivered, it is. -/
theorem settled_step (ht : t.Punctual) (hF : ¬LawfulStore.Faulty σ) {r : Runner κ σ}
    {op : Operation} (hop : op.Timely) (hw : ¬op.Merges w) (h : Sound t r.seen ∧ Tended r.seen) :
    r.endPanesIn w op + (r.seen.settled w).toNat ≤ ((r.step op).2.seen.settled w).toNat := by
  have quiet : r.endPanesIn w op = 0 →
      (r.seen.settled w = true → (r.step op).2.seen.settled w = true) →
      r.endPanesIn w op + (r.seen.settled w).toNat ≤ ((r.step op).2.seen.settled w).toNat := by
    intro hzero hkeep
    rw [hzero, Nat.zero_add]
    exact settled_mono hkeep
  cases op with
  | tick now =>
    obtain ⟨-, -, hle, -⟩ := tick_step (w := w) ht hF now h.1 h.2
    exact hle
  | element ws at' =>
    refine quiet rfl fun hset => ?_
    obtain ⟨_, r', hr', -, hset'⟩ := (settled_element ht hF).returns (fun _ _ h => h) ⟨h.1, hset⟩
    have hstep : r.step (.element ws at') = (.ok .done, r') := step_of_ok (bind_of_ok hr')
    rw [hstep]
    exact hset'
  | merge ws d =>
    refine quiet rfl fun hset => ?_
    have hwd : w ∉ ws ∧ w ≠ d := not_or.1 hw
    have hno : ∀ (e : RunnerError) (r' : Runner κ σ),
        ¬((LawfulStore.Faulty σ ∨ ∃ e p, r.seen.merging ws d = .error e p) ∧
          ∃ ts g, HalfMerged ws d r.seen.store g ∧
            r'.seen = { r.seen.withTimers d ts with store := g }) := by
      intro e r' hx
      rcases hx with ⟨hf | ⟨e, p, hp⟩, -⟩
      · exact hF hf
      · exact (ht.invariant.merge r.seen ws d h.1 hop).of_error rfl hp
    obtain ⟨_, r', hr', p, -, hv⟩ := (merge_ensures (v := r.seen)).returns hno rfl
    have hstep : r.step (.merge ws d) = (.ok .done, r') := step_of_ok (bind_of_ok hr')
    rw [hstep]
    show r'.seen.settled w = true
    rw [hv]
    exact settled_merged hwd.1 hwd.2 hset
  | collect =>
    refine quiet rfl fun hset => ?_
    obtain ⟨us, r', hr', hv, hus⟩ := collect_step ht hF h.1
    rw [hr', hv]
    exact settled_collected (fun u hu => (hus u hu).2.1) hset
  | _ => exact hop.elim

theorem endPanes_run (ht : t.Punctual) (hF : ¬LawfulStore.Faulty σ) : ∀ (ops : List Operation)
    {r : Runner κ σ}, (∀ op ∈ ops, op.Timely ∧ ¬op.Merges w) → Sound t r.seen ∧ Tended r.seen →
    r.endPanes w ops + (r.seen.settled w).toNat ≤ ((r.run ops).seen.settled w).toNat
  | [], r, _, _ => by simp [endPanes, run]
  | op :: ops, r, hops, h => by
    obtain ⟨hop, hw⟩ := hops op List.mem_cons_self
    have hstep := settled_step ht hF hop hw h
    have hrest := endPanes_run ht hF ops (fun op hop => hops op (List.mem_cons_of_mem _ hop))
      (tended_step ht hF hop h)
    have hrun : r.run (op :: ops) = (r.step op).2.run ops := rfl
    rw [hrun, endPanes]
    omega

end Trying

/-- A runner in memory that is driven by ticks delivers the pane at the end of a window on time and
once. After a tick that moves the watermark on, every active window that is past its end had it. A
collection takes only windows that had it, and leaves those that owe it as they are. And a window
that is not merged gets it at most once, whether or not it is collected in between. -/
theorem on_time_pane (ht : t.Punctual) (cfg : RunnerConfig) {ops : List Operation}
    (hops : ∀ op ∈ ops, op.Timely) :
    let r := (start t cfg MemoryStore.empty).run ops
    (∀ now, (∀ m, r.watermark = some m → m < now) → ∀ w ∈ (r.step (.tick now)).2.active,
      w.maxTimestamp < now → (r.step (.tick now)).2.seen.endFired w = true) ∧
    (∃ us, (r.step .collect).1 = .ok (.windows us) ∧ (∀ u ∈ us, r.seen.endFired u = true) ∧
      ∀ w ∈ r.active, r.seen.endFired w = false → w ∈ (r.step .collect).2.active ∧
        (r.step .collect).2.store.state w = r.store.state w) ∧
    ∀ w, (∀ op ∈ ops, ¬op.Merges w) → (start t cfg MemoryStore.empty).endPanes w ops ≤ 1 := by
  have hF : ¬LawfulStore.Faulty MemoryStore := id
  have hstart : Sound t (start t cfg MemoryStore.empty).seen ∧
      Tended (start t cfg MemoryStore.empty).seen := by
    refine ⟨?_, fun x hx => absurd hx TimerQueue.not_mem_empty,
      fun w hw => absurd hw Std.ExtTreeSet.not_mem_empty⟩
    cases t with
    | earlyAndLate c => exact phased_start cfg (funext fun _ => MemoryStore.state_empty)
    | once t =>
      refine ⟨rfl, fun w hw => ?_⟩
      have hw : (MemoryStore.empty.state w).finished .root = true := hw
      simp at hw
  intro r
  have hr : Sound t r.seen ∧ Tended r.seen := tended_run ht hF ops hops hstart
  refine ⟨fun now hnow w hw hend => ?_, ?_, fun w hw => ?_⟩
  · obtain ⟨-, -, -, htick⟩ := tick_step (w := w) ht hF now hr.1 hr.2
    obtain ⟨hticked, hwm⟩ := htick hnow
    exact hticked.endFired hw (endedBy_iff.2 ⟨now, hwm, hend⟩)
  · obtain ⟨us, r', hr', hv, hus⟩ := collect_step ht hF hr.1
    have hfired : ∀ u ∈ us, r.seen.endFired u = true := fun u hu => by
      obtain ⟨-, hlate, hidle⟩ := hus u hu
      by_contra hf
      exact ht.ready hr.1 (ended_of_expired ht hr.1.root_eq hlate) (Bool.not_eq_true _ ▸ hf) hidle
    rw [hr']
    refine ⟨us, rfl, hfired, fun w hw howes => ?_⟩
    have hnot : w ∉ us := fun hu => by
      rw [hfired w hu] at howes
      cases howes
    obtain ⟨q, a, l, hc, -, ha⟩ := foldl_collected us r.seen
    have hact : r'.active = a := congrArg active (hv.trans hc)
    have hsto : r'.store.state = fun w => if w ∈ us then .empty else r.store.state w :=
      congrArg store (hv.trans hc)
    refine ⟨?_, ?_⟩
    · show w ∈ r'.active
      rw [hact]
      exact (ha w).2 ⟨hw, hnot⟩
    · show r'.store.state w = _
      rw [hsto]
      exact if_neg hnot
  · have h := endPanes_run (w := w) ht hF ops (fun op hop => ⟨hops op hop, hw op hop⟩) hstart
    have hle := Bool.toNat_le (((start t cfg MemoryStore.empty).run ops).seen.settled w)
    omega

/-- The early trigger asks for a timer at each element. The first window is brought to its end, and
the second is merged into one that ends later. -/
theorem on_time_pane_with_merge :
    let c : EarlyAndLate ScriptedTrigger :=
      ⟨.custom { timers := [⟨.onElement, .eventTime, .element, 1⟩] }, some (.custom {})⟩
    let a : Window := ⟨.clamp 0, .clamp 10⟩
    let b : Window := ⟨.clamp 10, .clamp 20⟩
    let d : Window := ⟨.clamp 10, .clamp 25⟩
    let ops : List Operation := [.element [a] (.clamp 3), .tick (.clamp 5),
      .element [b] (.clamp 11), .merge [b] d, .tick (.clamp 12), .element [a] (.clamp 4)]
    let first := start (.earlyAndLate c) { allowedLateness := 5 } MemoryStore.empty
    let r := first.run ops
    (r.step (.tick (.clamp 30))).2.seen.endFired d = true ∧
      (∃ us, (r.step .collect).1 = .ok (.windows us) ∧ ∀ u ∈ us, r.seen.endFired u = true) ∧
      first.endPanes a ops = 1 ∧ first.endPanes a ops ≤ 1 := by
  intro c a b d ops
  have own : ∀ k : ScriptedTrigger, k.finishOnElement = false → k.failures = [] →
      OwnCounter k ∧ NeverFails k := fun k hk hf =>
    ⟨ScriptedTrigger.ownCounter hk, ScriptedTrigger.neverFails hf⟩
  have hc : (Trigger.earlyAndLate c).Punctual := by
    refine .composite ⟨(own _ rfl rfl).1, fun t ht => ?_⟩ ⟨(own _ rfl rfl).2, fun t ht => ?_⟩
    · cases ht
      exact (own _ rfl rfl).1
    · cases ht
      exact (own _ rfl rfl).2
  have hops : ∀ op ∈ ops, op.Timely := by simp [ops, Operation.Timely]
  have hmerges : ∀ op ∈ ops, ¬op.Merges a := by
    have hab : a ≠ b := by decide
    have had : a ≠ d := by decide
    simp [ops, Operation.Merges, hab, had]
  obtain ⟨htick, ⟨us, hus, hfired, -⟩, hpanes⟩ :=
    on_time_pane hc { allowedLateness := 5 } hops
  refine ⟨?_, ⟨us, hus, hfired⟩, by decide +kernel, hpanes a hmerges⟩
  exact htick (.clamp 30) (by decide +kernel) d (by decide +kernel) (by decide)

end Runner

end PaneTriggers
