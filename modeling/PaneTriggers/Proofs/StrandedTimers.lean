import PaneTriggers.Proofs.BarredWindows
import PaneTriggers.Proofs.StepFrames
import PaneTriggers.Proofs.TickInvariant

/-!
# Which windows have timers pending

Timers are set while a step about a window is still under way, and the window becomes active at the
end of the step. A step that fails in between leaves timers of a window that need not be active.
These stranded windows (`Runner.stranded`) are the only ones with timers that are not active
(`Runner.woken_active_or_stranded`), over any store and any tree. The induction is over the run,
with `step_leaves` for one operation and `delivered_leaves` for the windows of one element.
-/

namespace PaneTriggers.Runner

variable {κ σ α : Type}

/-! ## Timers and active windows -/

/-- Every pending timer belongs to an active window or to one of `ws`. -/
def Owned (ws : List Window) (r : Runner κ σ) : Prop :=
  ∀ x ∈ r.timers, x.window ∈ r.active ∨ x.window ∈ ws

/-- The active windows are those of `a`, and timers are pending for them and `ws` only. -/
structure OwnedBy (a : Std.ExtTreeSet Window) (ws : List Window) (r : Runner κ σ) : Prop where
  owned : Owned ws r
  active_eq : r.active = a

/-- No windows but those of `a` are active, and timers are pending for active windows and `ws` only.
-/
structure OwnedWithin (a : Std.ExtTreeSet Window) (ws : List Window) (r : Runner κ σ) : Prop where
  owned : Owned ws r
  active_subset : ∀ w ∈ r.active, w ∈ a

section Owned

variable {us ws : List Window} {a : Std.ExtTreeSet Window} {r : Runner κ σ} {w d : Window}

theorem Owned.mono (h : Owned us r) (hws : ∀ w ∈ us, w ∈ ws) : Owned ws r :=
  fun x hx => (h x hx).imp_right (hws _)

theorem Owned.withTimers (h : Owned ws r) (hw : w ∈ r.active ∨ w ∈ ws)
    (ts : List (TimeDomain × Timestamp)) : Owned ws (r.withTimers w ts) := by
  intro x hx
  rcases mem_withTimers hx with hxw | hx
  · rw [hxw]
    exact hw
  · exact h x hx

theorem Owned.retire (h : Owned ws r) (w : Window) : Owned ws (r.retire w) := by
  intro x hx
  obtain ⟨hx, hxw⟩ := TimerQueue.mem_deleteWindow.1 hx
  exact (h x hx).imp_left fun ha => mem_active_erase.2 ⟨hxw, ha⟩

theorem Owned.foldl_retire (h : Owned ws r) (us : List Window) :
    Owned ws (us.foldl Runner.retire r) := by
  induction us generalizing r with
  | nil => exact h
  | cons u us ih => exact ih (h.retire u)

theorem Owned.advance (h : Owned ws r) (now : Timestamp) : Owned ws (r.advance now).2 := by
  intro x hx
  rw [advance_active]
  rcases r.advance_cases now with ⟨-, ha⟩ | ⟨-, ha⟩ <;> rw [ha] at hx
  · exact h x hx
  · exact h x (TimerQueue.mem_drain.1 hx).1

theorem Owned.of_woken (h : Owned ws r) {now : Timestamp} (hw : w ∈ (r.advance now).1) :
    w ∈ r.active ∨ w ∈ ws := by
  rcases r.advance_cases now with ⟨-, ha⟩ | ⟨-, ha⟩ <;> rw [ha] at hw
  · cases hw
  · obtain ⟨x, hx, -, rfl⟩ := mem_woken.1 hw
    exact h x hx

/-- A window that becomes active need not be told apart any more. -/
theorem Owned.activate (h : Owned (w :: ws) r) :
    Owned ws { r with active := r.active.insert w } := by
  intro x hx
  rcases h x hx with ha | hm
  · exact .inl (mem_active_insert.2 (.inr ha))
  · rcases List.mem_cons.1 hm with hxw | hm
    · exact .inl (mem_active_insert.2 (.inl hxw))
    · exact .inr hm

theorem Owned.inactive (h : Owned ws r) : Owned (ws.filter fun w => decide (w ∉ r.active)) r := by
  intro x hx
  by_cases ha : x.window ∈ r.active
  · exact .inl ha
  · exact .inr (List.mem_filter.2 ⟨(h x hx).resolve_left ha, decide_eq_true ha⟩)

theorem ownedBy_unnoted : Unnoted (OwnedBy a ws : Runner κ σ → Prop) :=
  fun _ _ _ _ _ h => ⟨h.owned, h.active_eq⟩

theorem OwnedBy.cons (h : OwnedBy a ws r) (w : Window) : OwnedBy a (w :: ws) r :=
  ⟨h.owned.mono fun _ => List.mem_cons_of_mem w, h.active_eq⟩

theorem OwnedBy.withTimers (hw : w ∈ a ∨ w ∈ ws) (r : Runner κ σ)
    (ts : List (TimeDomain × Timestamp)) (h : OwnedBy a ws r) : OwnedBy a ws (r.withTimers w ts) :=
  ⟨h.owned.withTimers (h.active_eq ▸ hw) ts, h.active_eq⟩

theorem foldl_retire_active : ∀ (us : List Window) (r : Runner κ σ),
    ∀ w ∈ (us.foldl retire r).active, w ∈ r.active
  | [], _, _, h => h
  | u :: us, r, w, h => (mem_active_erase.1 (foldl_retire_active us (r.retire u) w h)).2

theorem OwnedBy.within (h : OwnedBy a ws r) : OwnedWithin a ws r :=
  ⟨h.owned, fun _ hw => h.active_eq ▸ hw⟩

end Owned

/-! ## What one operation leaves -/

/-- The action fails. -/
def fails (act : RunnerM κ σ α) (r : Runner κ σ) : Bool :=
  match act r with
  | .ok _ _ => false
  | .error _ _ => true

theorem fails_of_ok {act : RunnerM κ σ α} {r r' : Runner κ σ} {x : α} (h : act r = .ok x r') :
    fails act r = false := by
  unfold fails
  rw [h]

theorem fails_of_error {act : RunnerM κ σ α} {r r' : Runner κ σ} {e : RunnerError}
    (h : act r = .error e r') : fails act r = true := by
  unfold fails
  rw [h]

section Steps

variable [CustomTrigger κ] [StateStore σ]

/-- The windows of those that an element is still to come to at which it fails. -/
def failedFrom (assigned : List Window) (t : Timestamp) (r : Runner κ σ) (ws : List Window) :
    List Window :=
  ((visitsFrom assigned t r ws).filter fun x => fails (deliver assigned t x.2) x.1).map Prod.snd

/-- The windows of those that an element is still to come to that accept it. -/
def acceptedFrom (assigned : List Window) (t : Timestamp) (r : Runner κ σ) (ws : List Window) :
    List Window :=
  ((visitsFrom assigned t r ws).filter fun x =>
    decide (x.1.fate x.2 = .handed) && !fails (deliver assigned t x.2) x.1).map Prod.snd

/-- The window at which an operation that makes windows active fails: an element at the window it
has come to, a merge at its destination. -/
def failedAt (r : Runner κ σ) : Operation → List Window
  | .element ws t => failedFrom ws t r ws
  | .merge ws d => if fails (merge ws d) r then [d] else []
  | _ => []

/-- The windows that accept an element, or into which others are merged. -/
def gained (r : Runner κ σ) : Operation → List Window
  | .element ws t => acceptedFrom ws t r ws
  | .merge ws d => if fails (merge ws d) r then [] else [d]
  | _ => []

/-- The windows that an operation tries to fire. -/
def targets (r : Runner κ σ) : Operation → List Window
  | .fire w | .fireIfReady w => [w]
  | .tick t => (r.advance t).1
  | _ => []

variable {us ws : List Window} {a : Std.ExtTreeSet Window} {r r' : Runner κ σ} {w d : Window}

theorem accept_leaves {t : Timestamp} {s : WindowState} :
    Ensures (OwnedBy a ws) (accept us t w s : RunnerM κ σ Unit)
      (fun _ => OwnedBy (a.insert w) ws) fun _ => OwnedBy a (w :: ws) := by
  have hset : ∀ (r : Runner κ σ) ts, OwnedBy a (w :: ws) r →
      OwnedBy a (w :: ws) (r.withTimers w ts) := OwnedBy.withTimers (.inr List.mem_cons_self)
  refine Ensures.mono (P := OwnedBy a (w :: ws)) ?_ (fun _ h => h.cons w) (fun _ _ h => h)
    fun _ _ h => h
  refine .bind (ownedBy_unnoted.evaluating hset) fun s => .bind (Q := fun _ => OwnedBy a (w :: ws))
    (.modify fun r h => hset r [(.eventTime, w.maxTimestamp)] h) fun _ =>
      .bind ownedBy_unnoted.usingStore fun _ => .modify fun r h => ?_
  exact ⟨h.owned.activate, congrArg (·.insert w) h.active_eq⟩

/-- A window that is handed an element becomes active, unless that fails. -/
theorem deliver_leaves (us : List Window) (t : Timestamp) :
    Ensures (fun r₁ => r₁ = r ∧ OwnedBy a ws r₁) (deliver us t w : RunnerM κ σ Unit)
      (fun _ r' => OwnedBy a ws r' ∨ r.fate w = .handed ∧ OwnedBy (a.insert w) ws r')
      fun _ => OwnedBy a (w :: ws) := by
  have hexamine : Preserves (OwnedBy a ws) (examine w : RunnerM κ σ _) := by
    refine .bind (Q := fun _ => OwnedBy a ws) (.get fun _ h => h) fun _ =>
      .ite (fun _ => .pure fun _ h => h) fun _ => .bind ownedBy_unnoted.usingStore fun _ => ?_
    exact .bind (Q := fun _ => OwnedBy a ws) (.get fun _ h => h) fun _ =>
      .ite (fun _ => .pure fun _ h => h) fun _ => .pure fun _ h => h
  rw [deliver_eq]
  refine .bind (Q := fun found r' => OwnedBy a ws r' ∧ (found.isOk = true → r.fate w = .handed))
    ?_ fun found => ?_
  · rintro _ ⟨rfl, h⟩
    have hkept := hexamine _ h
    unfold fate
    revert hkept
    rcases examine w _ with ⟨reason | s, r'⟩ | ⟨e, r'⟩
    · exact fun hkept => ⟨hkept, nofun⟩
    · exact fun hkept => ⟨hkept, fun _ => rfl⟩
    · exact fun hkept => hkept.cons w
  · rcases found with reason | s
    · exact ownedBy_unnoted.drop.mono (fun _ h => h.1) (fun _ _ h => .inl h) fun _ _ h => h.cons w
    · exact fun r' h => (accept_leaves.onReturn fun _ _ h' => .inr ⟨h.2 rfl, h'⟩) r' h.1

/-- The windows that an element comes to own the timers that it leaves. -/
theorem delivered_leaves (assigned : List Window) (t : Timestamp) :
    ∀ (us : List Window) (r : Runner κ σ), Owned ws r →
      Owned (failedFrom assigned t r us ++ ws) (delivered assigned t us r) ∧
      ∀ w ∈ (delivered assigned t us r).active, w ∈ r.active ∨ w ∈ acceptedFrom assigned t r us
  | [], _, h => ⟨h, fun _ hw => .inl hw⟩
  | u :: us, r, h => by
    have hleaves := deliver_leaves (w := u) assigned t r ⟨rfl, h, rfl⟩
    unfold failedFrom acceptedFrom
    cases hx : deliver assigned t u r with
    | ok _ r₁ =>
      rw [hx] at hleaves
      have howned : Owned ws r₁ := hleaves.elim (·.owned) (·.2.owned)
      obtain ⟨hend, hactive⟩ := delivered_leaves assigned t us r₁ howned
      rw [delivered_of_ok hx, visitsFrom_of_ok hx,
        List.filter_cons_of_neg (by simp [fails_of_ok hx])]
      refine ⟨hend, fun w hw => ?_⟩
      rcases hactive w hw with hw | hw
      · rcases hleaves with h' | ⟨hfate, h'⟩
        · rw [h'.active_eq] at hw
          exact .inl hw
        · rw [h'.active_eq] at hw
          rcases mem_active_insert.1 hw with rfl | hw
          · refine .inr ?_
            rw [List.filter_cons_of_pos (by simp [hfate, fails_of_ok hx])]
            exact List.mem_cons_self
          · exact .inl hw
      · refine .inr ?_
        obtain ⟨x, hx', rfl⟩ := List.mem_map.1 hw
        obtain ⟨hm, hx'⟩ := List.mem_filter.1 hx'
        exact List.mem_map.2 ⟨x, List.mem_filter.2 ⟨List.mem_cons_of_mem _ hm, hx'⟩, rfl⟩
    | error e r₁ =>
      rw [hx] at hleaves
      rw [delivered_of_error hx, visitsFrom_of_error hx,
        List.filter_cons_of_pos (by simp [fails_of_error hx])]
      exact ⟨hleaves.owned, fun w hw => .inl (hleaves.active_eq ▸ hw)⟩

/-- A merge that fails may leave timers of its destination. -/
theorem merge_leaves (us : List Window) (d : Window) :
    Ensures (OwnedBy a ws) (merge us d : RunnerM κ σ Unit)
      (fun _ r => Owned ws r ∧ ∀ w ∈ r.active, w = d ∨ w ∈ a) fun _ => OwnedBy a (d :: ws) := by
  have hset : ∀ (r : Runner κ σ) ts, OwnedBy a (d :: ws) r →
      OwnedBy a (d :: ws) (r.withTimers d ts) := OwnedBy.withTimers (.inr List.mem_cons_self)
  refine Ensures.mono (P := OwnedBy a (d :: ws)) ?_ (fun _ h => h.cons d) (fun _ _ h => h)
    fun _ _ h => h
  refine .bind (ownedBy_unnoted.loadSources us) fun ms => .bind (ownedBy_unnoted.evaluating hset)
    fun s => .bind (Q := fun _ => OwnedBy a (d :: ws)) (.get fun _ h => h) fun b =>
      .bind (Q := fun _ => OwnedBy a (d :: ws)) (.get fun _ h => h) fun c =>
        .bind ownedBy_unnoted.usingStore fun _ => .modify fun r h => ⟨?_, fun w hw => ?_⟩
  · have hretired := h.owned.foldl_retire (us.filter (· ≠ d))
    generalize (us.filter (· ≠ d)).foldl retire r = r₁ at hretired
    have hend : Owned (d :: ws) { r₁ with timers := if c.closedIn (closeMerged b ms d s)
        then r₁.timers else r₁.timers.insert (.endOf d) } := by
      split_ifs
      · exact hretired
      · exact hretired.withTimers (.inr List.mem_cons_self) [(.eventTime, d.maxTimestamp)]
    exact hend.activate
  · rcases mem_active_insert.1 hw with hw | hw
    · exact .inl hw
    · exact .inr (h.active_eq ▸ foldl_retire_active _ r w hw)

theorem garbageCollect_leaves :
    Preserves (OwnedWithin a ws) (garbageCollect : RunnerM κ σ (List Window)) := by
  have hkept : Unnoted (OwnedWithin a ws : Runner κ σ → Prop) :=
    fun _ _ _ _ _ h => ⟨h.owned, h.active_subset⟩
  refine .bind (Q := fun _ => OwnedWithin a ws) (.get fun _ h => h) fun _ =>
    hkept.collectEach (fun r w h => ⟨h.owned.retire w, fun u hu => ?_⟩) _
  exact h.active_subset u (mem_active_erase.1 hu).2

/-- What an operation leaves that fires active windows only. -/
theorem step_leaves {op : Operation} (h : Owned ws r) (hop : ∀ w ∈ r.targets op, w ∈ r.active) :
    Owned (r.failedAt op ++ ws) (r.step op).2 ∧
      ∀ w ∈ (r.step op).2.active, w ∈ r.active ∨ w ∈ r.gained op := by
  have kept : Preserves (OwnedBy r.active ws) (perform op : RunnerM κ σ Answer) →
      OwnedWithin r.active ws (r.step op).2 := fun hk => (step_ensures hk ⟨h, rfl⟩).within
  have within : r.failedAt op = [] → OwnedWithin r.active ws (r.step op).2 →
      Owned (r.failedAt op ++ ws) (r.step op).2 ∧
        ∀ w ∈ (r.step op).2.active, w ∈ r.active ∨ w ∈ r.gained op := fun hf hk => by
    rw [hf]
    exact ⟨hk.owned, fun w hw => .inl (hk.active_subset w hw)⟩
  have firing : ∀ w ∈ r.active,
      Preserves (OwnedBy r.active ws) (perform (.fireIfReady w) : RunnerM κ σ Answer) := fun w hw =>
    .map (ownedBy_unnoted.fireIfReady (OwnedBy.withTimers (.inl hw)))
  cases op with
  | element us t =>
    rw [step_element]
    exact delivered_leaves us t us r h
  | merge us d =>
    have hleaves := merge_leaves us d r ⟨h, rfl⟩
    dsimp only [failedAt, gained]
    cases hx : merge us d r with
    | ok _ r' =>
      have hs : r.step (.merge us d) = (.ok .done, r') := step_of_ok (bind_of_ok hx)
      rw [hx] at hleaves
      rw [hs, fails_of_ok hx]
      exact ⟨hleaves.1, fun w hw => (hleaves.2 w hw).symm.imp_right List.mem_singleton.2⟩
    | error e r' =>
      have hs : r.step (.merge us d) = (.error e, r') := step_of_error (bind_of_error hx)
      rw [hx] at hleaves
      rw [hs, fails_of_error hx]
      exact ⟨hleaves.owned, fun w hw => .inl (hleaves.active_eq ▸ hw)⟩
  | advance t => exact within rfl ⟨h.advance t, fun w hw => advance_active r t ▸ hw⟩
  | tick t =>
    rw [step_tick] at within ⊢
    have hticked : OwnedBy r.active ws
        ((r.advance t).2.run ((r.advance t).1.map .fireIfReady)) := by
      refine run_keeps (fun op' hop' => ?_) ⟨h.advance t, r.advance_active t⟩
      obtain ⟨w, hw, rfl⟩ := List.mem_map.1 hop'
      exact firing w (hop w hw)
    exact within rfl hticked.within
  | shouldFire w => exact within rfl (kept (.map ownedBy_unnoted.shouldFire))
  | fire w =>
    have hw : w ∈ r.active := hop w List.mem_cons_self
    exact within rfl (kept (.map (ownedBy_unnoted.onFire (OwnedBy.withTimers (.inl hw)))))
  | fireIfReady w => exact within rfl (kept (firing w (hop w List.mem_cons_self)))
  | isClosed w => exact within rfl (kept (.map ownedBy_unnoted.isClosed))
  | windowState w => exact within rfl (kept (.map ownedBy_unnoted.usingStore))
  | collect =>
    have hcollect : Preserves (OwnedWithin r.active ws) (perform .collect : RunnerM κ σ Answer) :=
      .map garbageCollect_leaves
    exact within rfl (step_ensures hcollect ⟨h, fun _ hw => hw⟩)

theorem failedFrom_of_ok {assigned : List Window} {t : Timestamp} {x : PUnit} :
    ∀ {us : List Window} {r : Runner κ σ}, us.forM (deliver assigned t) r = .ok x r' →
      failedFrom assigned t r us = []
  | [], _, _ => rfl
  | u :: us, r, h => by
    unfold failedFrom
    cases hx : deliver assigned t u r with
    | ok _ r₁ =>
      have hrest : (u :: us).forM (deliver assigned t) r = us.forM (deliver assigned t) r₁ :=
        bind_of_ok hx
      rw [hrest] at h
      rw [visitsFrom_of_ok hx, List.filter_cons_of_neg (by simp [fails_of_ok hx])]
      exact failedFrom_of_ok h
    | error e r₁ =>
      have hend : (u :: us).forM (deliver assigned t) r = .error e r₁ := bind_of_error hx
      rw [hend] at h
      cases h

theorem failedAt_of_ok {op : Operation} (h : (r.step op).1.isOk = true) : r.failedAt op = [] := by
  cases op with
  | element us t =>
    cases hx : us.forM (deliver us t) r with
    | ok _ r' => exact failedFrom_of_ok hx
    | error e r' =>
      have hs : r.step (.element us t) = (.error e, r') := step_of_error (bind_of_error hx)
      rw [hs] at h
      cases h
  | merge us d =>
    cases hx : merge us d r with
    | ok _ r' =>
      dsimp only [failedAt]
      rw [fails_of_ok hx]
      rfl
    | error e r' =>
      have hs : r.step (.merge us d) = (.error e, r') := step_of_error (bind_of_error hx)
      rw [hs] at h
      cases h
  | _ => rfl

/-! ## Runs -/

/-- The windows at which steps of a run fail that have not been active after a step since then,
among them those of `ws`, where earlier steps failed. -/
def stranded (r : Runner κ σ) (ws : List Window) : List Operation → List Window
  | [] => ws
  | op :: ops =>
    let r' := (r.step op).2
    stranded r' ((r.failedAt op ++ ws).filter fun w => decide (w ∉ r'.active)) ops

/-- The windows that accept elements in a run, or into which others are merged. -/
def received (r : Runner κ σ) : List Operation → List Window
  | [] => []
  | op :: ops => r.gained op ++ received (r.step op).2 ops

/-- The run fires active windows only. -/
def FiresActive (r : Runner κ σ) : List Operation → Prop
  | [] => True
  | op :: ops => (∀ w ∈ r.targets op, w ∈ r.active) ∧ FiresActive (r.step op).2 ops

instance FiresActive.decidable : ∀ (r : Runner κ σ) (ops : List Operation),
    Decidable (r.FiresActive ops)
  | _, [] => inferInstanceAs (Decidable True)
  | r, op :: ops =>
    have := decidable (r.step op).2 ops
    inferInstanceAs (Decidable ((∀ w ∈ r.targets op, w ∈ r.active) ∧ _))

theorem run_leaves : ∀ {ops : List Operation} {ws : List Window} {r : Runner κ σ},
    Owned ws r → r.FiresActive ops → Owned (r.stranded ws ops) (r.run ops) ∧
      ∀ w ∈ (r.run ops).active, w ∈ r.active ∨ w ∈ r.received ops
  | [], _, _, h, _ => ⟨h, fun _ hw => .inl hw⟩
  | op :: ops, ws, r, h, hops => by
    obtain ⟨howned, hactive⟩ := step_leaves h hops.1
    obtain ⟨hend, hlater⟩ := run_leaves howned.inactive hops.2
    refine ⟨hend, fun w hw => ?_⟩
    rcases hlater w hw with hw | hw
    · exact (hactive w hw).imp_right (List.mem_append_left _)
    · exact .inr (List.mem_append_right _ hw)

theorem stranded_of_ok : ∀ {ops : List Operation} {r : Runner κ σ},
    (∀ x ∈ r.answers ops, x.isOk = true) → r.stranded [] ops = []
  | [], _, _ => rfl
  | op :: ops, r, h => by
    unfold stranded
    rw [failedAt_of_ok (h _ List.mem_cons_self)]
    exact stranded_of_ok fun x hx => h x (List.mem_cons_of_mem _ hx)

/-- In a run that fires active windows only, every pending timer belongs to an active window, or to
a stranded one. So a watermark wakes stranded windows and active ones, which have received
something. No window is stranded if no step fails. -/
theorem woken_active_or_stranded (t : Trigger κ) (cfg : RunnerConfig) (store : σ)
    {ops : List Operation} (hops : (start t cfg store).FiresActive ops) :
    let first := start t cfg store
    let r := first.run ops
    (∀ x ∈ r.timers, x.window ∈ r.active ∨ x.window ∈ first.stranded [] ops) ∧
    (∀ now, ∀ w ∈ (r.advance now).1,
      w ∈ r.active ∧ w ∈ first.received ops ∨ w ∈ first.stranded [] ops) ∧
    ((∀ x ∈ first.answers ops, x.isOk = true) → first.stranded [] ops = []) := by
  intro first r
  have hstart : Owned [] first := fun x hx => absurd hx TimerQueue.not_mem_empty
  obtain ⟨howned, hactive⟩ := run_leaves hstart hops
  refine ⟨howned, fun now w hw => (howned.of_woken hw).imp_left fun ha => ⟨ha, ?_⟩, stranded_of_ok⟩
  exact (hactive w ha).resolve_left Std.ExtTreeSet.not_mem_empty

/-- An element is accepted for its first window and fails at its second, whose state cannot be
saved. So does the merge of that one into another. The first window is fired, and a watermark wakes
all three. -/
theorem woken_active_or_stranded_despite_faults :
    let a : Window := ⟨.clamp 0, .clamp 10⟩
    let b : Window := ⟨.clamp 5, .clamp 15⟩
    let d : Window := ⟨.clamp 5, .clamp 20⟩
    let k : ScriptedTrigger := { timers := [⟨.onMerge, .eventTime, .endOfWindow, 0⟩] }
    let store : FaultyStore := { faults := { save := [b, d] } }
    let first := start (.once (.custom k)) {} store
    let ops : List Operation := [.element [a, b] (.clamp 6), .fireIfReady a, .merge [b] d]
    let r := first.run ops
    (r.advance (.clamp 20)).1 = [a, b, d] ∧
      (∀ w ∈ [a, b, d], w ∈ r.active ∧ w ∈ first.received ops ∨ w ∈ first.stranded [] ops) ∧
      r.active.toList = [a] ∧ first.received ops = [a] ∧ first.stranded [] ops = [d, b] := by
  intro a b d k store first ops r
  have hwoken : (r.advance (.clamp 20)).1 = [a, b, d] := by decide +kernel
  have hops : first.FiresActive ops := by decide +kernel
  obtain ⟨-, hwake, -⟩ := woken_active_or_stranded (.once (.custom k)) {} store hops
  exact ⟨hwoken, hwoken ▸ hwake (.clamp 20), by decide +kernel, by decide +kernel,
    by decide +kernel⟩

/-- A step that fails leaves the timer at the end of a window that has accepted nothing, and the
watermark wakes that window. -/
theorem failed_element_wakes_inactive_window :
    let w : Window := ⟨.clamp 0, .clamp 10⟩
    let store : FaultyStore := { faults := { save := [w] } }
    let r := (start (.once .endOfWindow : Trigger ScriptedTrigger) {} store).run
      [.element [w] (.clamp 3)]
    (∃ x ∈ r.timers, x.window ∉ r.active) ∧ r.active.toList = [] ∧
      (r.advance (.clamp 10)).1 = [w] := by
  intro w store r
  exact ⟨⟨.endOf w, by decide +kernel, by decide +kernel⟩, by decide +kernel, by decide +kernel⟩

end Steps

end PaneTriggers.Runner
