import PaneTriggers.Proofs.Changes
import PaneTriggers.Proofs.Courses
import PaneTriggers.Proofs.ScriptedConduct
import PaneTriggers.Proofs.TreeEffects

/-!
# Panes that wait to be emitted

Over patient triggers, whose readiness outlasts elements and the watermark, a window that is ready
stays so until it is fired. An element lets counters grow (`Trigger.onElement_grown`), and a tree
that is ready is still ready when they have grown or the watermark has moved on
(`Trigger.ready_of_grown`). A collection leaves windows alone that are ready. So each event but a
pane of the window keeps it ready (`Runner.Occurs.keeps_ready`).
-/

namespace PaneTriggers

variable {κ σ : Type} {w w' w'' : WindowState} {now now' : Option Timestamp}

/-- The second watermark is not before the first. -/
def NotBefore (now now' : Option Timestamp) : Prop :=
  ∀ a, now = some a → ∃ b, now' = some b ∧ a ≤ b

theorem NotBefore.refl (now : Option Timestamp) : NotBefore now now :=
  fun a h => ⟨a, h, Int.le_refl _⟩

theorem NotBefore.endedBy (h : NotBefore now now') {w : Window} (hw : w.endedBy now = true) :
    w.endedBy now' = true := by
  obtain ⟨a, ha, hlt⟩ := Runner.endedBy_iff.1 hw
  obtain ⟨b, hb, hle⟩ := h a ha
  rw [Timestamp.lt_iff] at hlt
  rw [Timestamp.le_iff] at hle
  exact Runner.endedBy_iff.2 ⟨b, hb, Timestamp.lt_iff.2 (by omega)⟩

theorem Runner.advance_notBefore (r : Runner κ σ) (t : Timestamp) :
    NotBefore r.watermark (r.advance t).2.watermark := by
  obtain ⟨-, ha⟩ | ⟨hlt, ha⟩ := r.advance_cases t
  · rw [ha]
    exact .refl _
  · rw [ha]
    exact fun a h => ⟨t, rfl, Int.le_of_lt (hlt a h)⟩

/-- The same nodes are done in both states, and no counter is lower in the second. -/
structure Grown (w w' : WindowState) : Prop where
  finished : SameFinished w w'
  counter : ∀ q, (w.counter q).toNat ≤ (w'.counter q).toNat

theorem Grown.refl (w : WindowState) : Grown w w := ⟨.refl w, fun _ => Nat.le_refl _⟩

theorem Grown.trans (h : Grown w w') (h' : Grown w' w'') : Grown w w'' :=
  ⟨h.finished.trans h'.finished, fun q => Nat.le_trans (h.counter q) (h'.counter q)⟩

theorem CounterAt.grown {p : Position} (h : CounterAt p w w')
    (hp : (w.counter p).toNat ≤ (w'.counter p).toNat) : Grown w w' := by
  refine ⟨h.sameFinished, fun q => ?_⟩
  obtain ⟨c, rfl⟩ := h
  rw [WindowState.counter_setCounter] at hp ⊢
  split_ifs with hq
  · subst hq
    simpa using hp
  · exact Nat.le_refl _

theorem EarlyAndLate.Fed.grown {c : EarlyAndLate κ} {m : Bool}
    (h : c.Fed (fun _ => Grown) m w w') : Grown w w' := by
  cases h with
  | early _ _ h => exact h
  | late _ _ _ _ h => exact h
  | alone _ _ h => exact h
  | both _ _ h₁ h₂ => exact h₁.trans h₂

variable [CustomTrigger κ]

/-- A trigger writes its own counter only and never fails. Elements do not count it down, and once
it is ready it is so as long as its counter does not go down and the watermark not back. -/
structure Patient (k : κ) : Prop where
  own : OwnCounter k
  returns : NeverFails k
  counts : ∀ (s : Site) t ws d d', CustomTrigger.onElement k s t ws d = .ok () d' →
    (d.state.counter s.position).toNat ≤ (d'.state.counter s.position).toNat
  waits : ∀ (s : Site) now w w', NotBefore s.now now →
    (w.counter s.position).toNat ≤ (w'.counter s.position).toNat →
    CustomTrigger.shouldFire k s w = .ok true →
    CustomTrigger.shouldFire k { s with now := now } w' = .ok true

theorem ScriptedTrigger.patient {k : ScriptedTrigger} (hf : k.failures = [])
    (he : k.finishOnElement = false) : Patient k where
  own := ownCounter he
  returns := neverFails hf
  counts s t ws d d' h := by
    rw [(onElement_ensures he t).of_ok rfl h, WindowState.counter_setCounter, if_pos rfl]
    have := (d.state.counter s.position).le_greatest
    unfold Counter.next
    rw [Counter.toNat_clamp]
    split_ifs <;> omega
  waits s now w w' hnow hcount h := by
    rw [shouldFire_eq hf] at h ⊢
    have h : k.isReady s w = true := by simpa using h
    refine congrArg Except.ok ?_
    unfold isReady at h ⊢
    cases hk : k.readiness with
    | count =>
      rw [hk] at h
      exact decide_eq_true (Nat.le_trans (of_decide_eq_true h) hcount)
    | always => rfl
    | never =>
      rw [hk] at h
      exact h
    | endOfWindow =>
      rw [hk] at h
      exact hnow.endedBy h

section Trees

variable {s : Scope} {t : Trigger κ} {l : Leaf κ}

theorem Leaf.ready_of_grown (hl : l.trigger.IfCustom Patient) (hnow : NotBefore s.now now)
    (h : Grown w w') (hr : l.ready s w = .ok true) : l.ready { s with now := now } w' = .ok true := by
  obtain ⟨p, trigger⟩ := l
  cases trigger with
  | endOfWindow =>
    have hend : s.ended = true := by
      injection hr
    exact congrArg Except.ok (hnow.endedBy hend)
  | never => cases hr
  | custom k => exact hl.waits (Leaf.site ⟨p, .custom k⟩ s) now w w' hnow (h.counter p) hr

/-- A tree that is ready is so with greater counters and under a later watermark. -/
theorem Trigger.ready_of_grown (ht : t.Customs Patient) (hs : s.Open) (hnow : NotBefore s.now now)
    (h : Grown w w') (hr : (Node.root t).ready s w = .ok true) :
    (Node.root t).ready { s with now := now } w' = .ok true := by
  cases t with
  | once t => exact Leaf.ready_of_grown (l := ⟨.root, t⟩) ht hnow h hr
  | earlyAndLate c =>
    have ht : c.Customs Patient := ht
    cases he : w.finished .early with
    | false =>
      rw [EarlyAndLate.ready_of_early he] at hr
      rw [EarlyAndLate.ready_of_early ((h.finished _).trans he)]
      -- Either the early child is ready, or the window has ended, and so it has later on.
      obtain ⟨b, hb⟩ := Leaf.ready_returns (l := c.earlyAt .root) (w := w)
        (ht.early.mono fun _ hk => hk.returns) hs
      have hs' : Scope.Open { s with now := now } := hs
      obtain ⟨b', hb'⟩ := Leaf.ready_returns (l := c.earlyAt .root) (w := w')
        (ht.early.mono fun _ hk => hk.returns) hs'
      rw [hb] at hr
      have hr : (b || s.ended) = true := by
        injection hr
      rw [hb']
      refine congrArg Except.ok ?_
      rcases Bool.or_eq_true_iff.1 hr with rfl | hend
      · have hearly := Leaf.ready_of_grown (l := c.earlyAt .root) ht.early hnow h hb
        rw [hb'] at hearly
        cases hearly
        rfl
      · exact Bool.or_eq_true_iff.2 (.inr (hnow.endedBy hend))
    | true =>
      rw [EarlyAndLate.ready_of_late he] at hr
      rw [EarlyAndLate.ready_of_late ((h.finished _).trans he)]
      cases hl : c.late with
      | none => rw [hl] at hr; cases hr
      | some t' =>
        rw [hl] at hr
        exact Leaf.ready_of_grown (l := ⟨.late, t'⟩) (ht.late t' hl) hnow h hr

theorem Trigger.onElement_grown (ht : t.Customs Patient) (hs : s.Open) (at' : Timestamp)
    (ws : List Window) :
    Ensures (fun p => p.state = w) ((Node.root t).onElement s at' ws)
      (fun _ p => Grown w p.state) fun _ _ => True := by
  have hook : ∀ (l : Leaf κ) (k : κ), Patient k →
      HookDoes Grown True (CustomTrigger.onElement k (l.site s) at' ws) := fun l k hk =>
    .of_ok (fun d d' hd => (hk.own.onElement _ _ _ _ _ hd).grown (hk.counts _ _ _ _ _ hd))
      (.inl trivial)
  cases t with
  | once t =>
    exact Leaf.onElement_ensures (A := fun _ => Grown) (l := ⟨.root, t⟩) (fun _ => .refl) hs at' ws
      (OnceTrigger.IfCustom.mono (hook _) ht)
  | earlyAndLate c =>
    exact (EarlyAndLate.onElement_ensures (A := fun _ => Grown) (fun _ _ _ => .refl) hs
      (fun l hl => (EarlyAndLate.Customs.leaves ht l hl).mono (hook l)) (.inl trivial)).onReturn
      fun _ _ hp => hp.grown

end Trees

namespace Runner

variable {t : Trigger κ} {v v' : Seen κ} {u : Window} {e : Event}

/-- A window that is ready stays so while its counters grow and the watermark moves on. -/
theorem ready_of_grown (ht : t.Customs Patient) (hroot : v.root = .root t)
    (hsame : v'.root = v.root) (hmerging : v'.supportsMerging = v.supportsMerging)
    (hnow : NotBefore v.watermark v'.watermark) (hstore : Grown (v.store u) (v'.store u))
    (hr : v.readiness u = .ok true) : v'.readiness u = .ok true := by
  obtain ⟨hopen, hready⟩ := readiness_true_iff.1 hr
  refine readiness_true_iff.2 ⟨?_, ?_⟩
  · unfold closedIn at hopen ⊢
    rw [hsame, hstore.finished, hopen]
  · have hscope : v'.scope u = { v.scope u with now := v'.watermark } := by
      unfold scope
      rw [hmerging]
    rw [hroot] at hready
    rw [hscope, hsame, hroot]
    exact Trigger.ready_of_grown ht (v.scope_open u) hnow hstore hready

/-- Nothing but a pane of the window ends its readiness. -/
theorem Occurs.keeps_ready (ht : t.Customs Patient) (hroot : v.root = .root t) (h : Occurs v e v')
    (he : e.pane? ≠ some u) (hr : v.readiness u = .ok true) : v'.readiness u = .ok true := by
  have grown := fun hnow hstore =>
    ready_of_grown (u := u) ht hroot h.root_eq h.settings_eq.2.1 hnow hstore hr
  by_cases ha : e = .advanced
  · subst ha
    cases h with
    | advanced t =>
      refine grown (v.advance_notBefore t) ?_
      rw [advance_store]
      exact .refl _
  by_cases hu : e.window? = some u
  · cases h with
    | dropped => exact hr
    | @taken ws t w p hn hp =>
      obtain rfl : w = u := by
        injection hu
      refine grown (.refl _) ?_
      unfold taking at hp
      rw [hroot] at hp
      rw [show (v.accepted t w p).store w = p.state from Contents.put_same _ _ _]
      exact (Trigger.onElement_grown ht (v.scope_open w) t ws).of_ok rfl hp
    | stalled hi =>
      obtain ⟨ts, rfl⟩ := hi
      exact hr
    | fired => exact absurd hu he
    | forced => exact absurd hu he
    | advanced => exact absurd rfl ha
    | collected _ _ hidle =>
      obtain rfl : _ = u := by
        injection hu
      rw [hidle] at hr
      cases hr
  · rw [h.readiness_eq hu ha, hr]

section Runs

variable [StateStore σ] [LawfulStore σ]

/-- Over a store without faults, a window is found ready if it is. -/
theorem shouldFire_iff (hF : ¬LawfulStore.Faulty σ) {r : Runner κ σ} {b : Bool} :
    (r.step (.shouldFire u)).1 = .ok (.flag b) ↔ r.seen.readiness u = .ok b := by
  have hask := shouldFire_ensures (σ := σ) (v := r.seen) (w := u)
  cases hx : shouldFire u r with
  | ok b' r' =>
    have hb := (hask.of_ok rfl hx).1
    rw [step_of_ok (bind_of_ok hx), hb]
    simp
  | error e r' =>
    obtain ⟨e', he⟩ := (hask.of_error rfl hx).1.resolve_left hF
    rw [step_of_error (bind_of_error hx), he]
    simp

/-- Once a window is ready it stays so, through elements, watermarks, collections and firings of
other windows, until an answer of the run tells of a pane of it. -/
theorem ready_until_fired (ht : t.Customs Patient) (hF : ¬LawfulStore.Faulty σ)
    (cfg : RunnerConfig) (store : σ) (before : List Operation) {after : List Operation}
    (hafter : ∀ op ∈ after, op.Plain) {w : Window} :
    let r := (start t cfg store).run before
    (r.step (.shouldFire w)).1 = .ok (.flag true) →
      (∀ e ∈ r.history after, e.pane? ≠ some w) →
      ((r.run after).step (.shouldFire w)).1 = .ok (.flag true) := by
  intro r hready hquiet
  rw [shouldFire_iff hF] at hready ⊢
  have hroot : r.root = .root t := run_root before _
  have hdecides : ¬r.seen.Undecided := not_undecided (ht.mono fun _ hk => hk.returns) hroot
  obtain ⟨told, ⟨es, hes, rfl⟩, hcause⟩ := run_leads hafter r
  have htold : es.filter Event.isTold = r.history after :=
    hcause.resolve_right fun h => h.elim hF hdecides
  have hpane : ∀ e ∈ es, e.pane? ≠ some w := fun e he hw =>
    hquiet e (htold ▸ List.mem_filter.2 ⟨he, Event.isTold_of_pane hw⟩) hw
  exact (hes.keeps (J := fun v => v.root = .root t ∧ v.readiness w = .ok true)
    (fun he ho hv => ⟨ho.root_eq.trans hv.1, ho.keeps_ready ht hv.1 (hpane _ he) hv.2⟩)
    ⟨hroot, hready⟩).2

/-- The early pane of a window waits while elements come for it, the other window is fired and
collected, the watermark is sent back and passes the window's lateness, and one more element is
dropped. -/
theorem early_pane_waits :
    let c : EarlyAndLate ScriptedTrigger :=
      ⟨.custom { threshold := .clamp 2 }, some (.custom { threshold := .clamp 3 })⟩
    let a : Window := ⟨.clamp 0, .clamp 10⟩
    let b : Window := ⟨.clamp 0, .clamp 5⟩
    let before : List Operation := [.element [a] (.clamp 1), .element [b, a] (.clamp 2)]
    let after : List Operation := [.element [a, b] (.clamp 3), .fireIfReady b, .advance (.clamp 7),
      .advance (.clamp 4), .fire b, .element [a] (.clamp 4), .advance (.clamp 40), .collect,
      .element [b, a] (.clamp 5), .shouldFire b]
    let r := (start (.earlyAndLate c) { allowedLateness := 5 } MemoryStore.empty).run before
    r.history after = [.fired b false, .forced b, .collected b] ∧
      (r.step (.shouldFire a)).1 = .ok (.flag true) ∧
      ((r.run after).step (.shouldFire a)).1 = .ok (.flag true) := by
  intro c a b before after r
  have hpatient : (Trigger.earlyAndLate c).Customs Patient :=
    .pair (ScriptedTrigger.patient rfl rfl) (ScriptedTrigger.patient rfl rfl)
  have hplain : ∀ op ∈ after, op.Plain := by simp [after, Operation.Plain]
  have hready : (r.step (.shouldFire a)).1 = .ok (.flag true) :=
    (shouldFire_iff fun hF => hF).2 (by decide +kernel)
  have hhistory : r.history after = [.fired b false, .forced b, .collected b] := by
    decide +kernel
  have hquiet : ∀ e ∈ r.history after, e.pane? ≠ some a := by
    rw [hhistory]
    decide
  exact ⟨hhistory, hready, ready_until_fired hpatient (fun hF => hF) { allowedLateness := 5 }
    MemoryStore.empty before hplain hready hquiet⟩

end Runs

end Runner

end PaneTriggers
