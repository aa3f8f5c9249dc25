import PaneTriggers.Proofs.Collections
import PaneTriggers.Proofs.CompiledTrees
import PaneTriggers.Proofs.CountingRefinement
import PaneTriggers.Proofs.EndOfWindow

/-!
# The last pane of a window

A collection keeps an expired window as long as it is ready. Over counting triggers one firing ends
that: past the end of the window a firing closes the root, or leaves a late child that has counted
nothing (`Runner.idle_of_fired`). The exception is a late child that is the end of the window
(`Trigger.RepeatsEnd`). It is ready again as soon as it is armed, and an open window over it lingers
on after its end whatever is done (`Runner.Occurs.keeps_lingering`).
-/

namespace PaneTriggers

variable {κ σ : Type}

/-! ## Compiled trees -/

namespace TriggerConfig

variable {P : κ → Prop} {registry : String → Option κ}

theorem StandsFor.customs (h : ∀ name k, registry name = some k → P k) {c : TriggerConfig}
    {t : OnceTrigger κ} (ht : StandsFor registry c t) : t.IfCustom P := by
  rcases ht with _ | _ | hk
  · trivial
  · trivial
  · exact h _ _ hk

/-- What holds of the registered triggers holds of the custom triggers of a compiled tree. -/
theorem compile_customs (h : ∀ name k, registry name = some k → P k) {c : TriggerConfig}
    {t : Trigger κ} (ht : c.compile registry = .ok t) : t.Customs P := by
  rcases compile_eq_ok_iff.1 ht with hc | _ | hc | hc | ⟨hc, hc'⟩
  · exact hc.customs h
  · trivial
  · exact ⟨hc.customs h, nofun⟩
  · refine ⟨trivial, ?_⟩
    rintro _ ⟨⟩
    exact hc.customs h
  · refine ⟨hc.customs h, ?_⟩
    rintro _ ⟨⟩
    exact hc'.customs h

end TriggerConfig

/-- The late child of the tree is the end of the window. -/
def Trigger.RepeatsEnd : Trigger κ → Prop
  | .once _ => False
  | .earlyAndLate c => c.late = some .endOfWindow

variable [CustomTrigger κ]

/-- A custom trigger that counts elements up to a positive number and never fails. -/
structure CountsUp (k : κ) : Prop where
  returns : NeverFails k
  counts : ∃ n : Counter, 0 < n.toNat ∧ Counts n k

theorem ScriptedTrigger.countsUp {k : ScriptedTrigger} (hr : k.readiness = .count)
    (hf : k.failures = []) (he : k.finishOnElement = false) (hn : 0 < k.threshold.toNat) :
    CountsUp k :=
  ⟨neverFails hf, k.threshold, hn, counts hr hf he⟩

theorem CountsUp.onOnlyFiring {k : κ} (hk : CountsUp k) {s : Site} (hs : s.Open) :
    HookDoes SameFinished False (CustomTrigger.onOnlyFiring k s) := by
  obtain ⟨n, -, hcount⟩ := hk.counts
  rintro w d rfl
  obtain ⟨d', hd, hsame⟩ := hcount.onOnlyFiring s d hs
  rw [hd]
  exact hsame

theorem CountsUp.shouldFire_unfed {k : κ} (hk : CountsUp k) {s : Site} (hs : s.Open)
    {w : WindowState} (hw : w.counter s.position = 0) :
    CustomTrigger.shouldFire k s w = .ok false := by
  obtain ⟨n, hn, hcount⟩ := hk.counts
  rw [hcount.shouldFire s w hs, hw]
  exact congrArg Except.ok (decide_eq_false (Nat.not_le.2 hn))

section Firing

variable {s : Scope} {w : WindowState}

theorem Leaf.ready_unfed {l : Leaf κ} (hl : l.trigger.IfCustom CountsUp) (hs : s.Open)
    (hne : l.trigger ≠ .endOfWindow) (hw : w.counter l.position = 0) :
    l.ready s w = .ok false := by
  obtain ⟨p, trigger⟩ := l
  cases trigger with
  | endOfWindow => exact absurd rfl hne
  | never => rfl
  | custom k => exact CountsUp.shouldFire_unfed hl (s := Leaf.site ⟨p, .custom k⟩ s) hs hw

theorem EarlyAndLate.firing_counts {c : EarlyAndLate κ} (hc : c.Customs CountsUp) (hs : s.Open) :
    Ensures (fun p => p.state = w) ((Node.root (.earlyAndLate c)).onFire s)
      (fun _ p => ∃ w₁, SameFinished w w₁ ∧ p.state = c.fired s.ended w₁) fun _ _ => False := by
  refine EarlyAndLate.onFire_ensures (A := fun _ => SameFinished) (fun _ => .refl)
    (fun _ _ _ h => h) (fun l hl => (hc.leaves l hl).mono fun k hk => hk.onOnlyFiring hs)
    fun l hl => (hc.leaves l hl).mono fun k hk w e he => ?_
  obtain ⟨b, hb⟩ := hk.returns.shouldFire (l.site s) w hs
  cases hb.symm.trans he

theorem OnceTrigger.firing_closes {t : OnceTrigger κ} (ht : t.IfCustom CountsUp) (hs : s.Open) :
    Ensures (fun p => p.state = w) ((Node.root (.once t)).onFire s)
      (fun _ p => p.state.finished .root = true) fun _ _ => False := by
  refine (Leaf.onFire_ensures (A := fun _ => SameFinished) (l := ⟨.root, t⟩) (fun _ => .refl)
    (ht.mono fun k hk => hk.onOnlyFiring (s := Leaf.site ⟨.root, t⟩ s) hs)).onReturn ?_
  rintro _ p ⟨w₁, -, hp⟩
  rw [hp]
  exact WindowState.finished_setFinished.trans (if_pos rfl)

end Firing

namespace Runner

variable {t : Trigger κ} {v v' : Seen κ} {w : Window} {p : Progress κ} {e : Event}

theorem readiness_fired (hroot : v.root = .root t) : (v.fired w p).readiness w =
    if p.state.finished .root = true then .ok false
    else (Node.root t).ready (v.scope w) p.state := by
  have hroot' : (v.fired w p).root = .root t := fired_root.trans hroot
  have hscope : (v.fired w p).scope w = v.scope w := by
    unfold scope
    rw [fired_watermark, fired_supportsMerging]
  unfold readiness
  rw [closedIn_root hroot', fired_store, Contents.put_same, hscope, hroot']

theorem scope_ended_of_expired {c : EarlyAndLate κ} (hroot : v.root = .root (.earlyAndLate c))
    (he : v.expired w = true) : (v.scope w).ended = true := by
  refine endedBy_of_expired ?_ he
  unfold guarantee
  rw [hroot]
  rfl

theorem firing_returns (ht : t.Customs CountsUp) (hroot : v.root = .root t) {e : TriggerError} :
    v.firing w ≠ .error e p := by
  intro hp
  unfold firing at hp
  rw [hroot] at hp
  cases t with
  | once t => exact (OnceTrigger.firing_closes ht (v.scope_open w)).of_error rfl hp
  | earlyAndLate c => exact (EarlyAndLate.firing_counts ht (v.scope_open w)).of_error rfl hp

/-- Once an expired window has been fired, it is not ready. -/
theorem idle_of_fired (ht : t.Customs CountsUp) (hroot : v.root = .root t)
    (he : v.expired w = true) (hend : ¬t.RepeatsEnd) (hp : v.firing w = .ok () p) :
    (v.fired w p).readiness w = .ok false := by
  have hs := v.scope_open w
  rw [readiness_fired hroot]
  unfold firing at hp
  rw [hroot] at hp
  cases t with
  | once t => rw [if_pos ((OnceTrigger.firing_closes ht hs).of_ok rfl hp)]
  | earlyAndLate c =>
    obtain ⟨w₁, -, hstate⟩ := (EarlyAndLate.firing_counts ht hs).of_ok rfl hp
    have hended : (v.scope w).ended = true := scope_ended_of_expired hroot he
    rw [hended] at hstate
    rcases hc : c.late with _ | l
    · have hdone : p.state.finished .root = true := by
        rw [hstate, EarlyAndLate.finished_root_fired, hc]
        simp
      rw [if_pos hdone]
    · split_ifs
      · rfl
      have hearly : p.state.finished .early = true := by
        rw [hstate, EarlyAndLate.finished_early_fired, Bool.or_true]
      have hne : l ≠ .endOfWindow := by
        rintro rfl
        exact hend hc
      rw [EarlyAndLate.ready_of_late hearly, hc]
      refine Leaf.ready_unfed (l := ⟨.late, l⟩) (ht.late l hc) hs hne ?_
      rw [hstate]
      exact EarlyAndLate.counter_late_fired hc (.inr rfl)

/-! ## Windows that linger -/

/-- The window is open and past its lateness. -/
structure Lingering (t : Trigger κ) (v : Seen κ) (w : Window) : Prop where
  root_eq : v.root = .root t
  active : w ∈ v.active
  expired : v.expired w = true
  unclosed : v.closedIn (v.store w) = false

/-- Over a late child that is the end of the window, a window that lingers is ready. -/
theorem Lingering.ready (ht : t.Customs NeverFails) (hend : t.RepeatsEnd) (h : Lingering t v w) :
    v.readiness w = .ok true := by
  cases t with
  | once t => exact hend.elim
  | earlyAndLate c =>
    have hended : (v.scope w).ended = true := scope_ended_of_expired h.root_eq h.expired
    have hready : v.readiness w = (Node.root (.earlyAndLate c)).ready (v.scope w) (v.store w) := by
      unfold readiness
      rw [if_neg (Bool.eq_false_iff.1 h.unclosed), h.root_eq]
    obtain ⟨b, hb⟩ := Trigger.ready_returns ht (s := v.scope w) (w := v.store w) (v.scope_open w)
    rw [hready, hb]
    rcases hearly : (v.store w).finished .early
    · rw [EarlyAndLate.ready_of_ended hearly hended hb]
    · rw [EarlyAndLate.ready_of_late hearly, show c.late = some .endOfWindow from hend] at hb
      have hb : Except.ok (v.scope w).ended = (.ok b : Except TriggerError Bool) := hb
      rw [← hb, hended]

/-- Nothing that can happen makes the window close, or has it collected. -/
theorem Occurs.keeps_lingering (ht : t.Customs CountsUp) (hend : t.RepeatsEnd) (h : Occurs v e v')
    (hw : Lingering t v w) : Lingering t v' w := by
  have hready := hw.ready (ht.mono fun _ hk => hk.returns) hend
  have still : ∀ {u : Window} {p : Progress κ}, v.firing u = .ok () p →
      v.closedIn ((v.store.put u p.state) w) = false := by
    intro u p hp
    by_cases hu : w = u
    · subst hu
      cases t with
      | once t => exact hend.elim
      | earlyAndLate c =>
        unfold firing at hp
        rw [hw.root_eq] at hp
        obtain ⟨w₁, hsame, hstate⟩ :=
          (EarlyAndLate.firing_counts ht (v.scope_open w)).of_ok rfl hp
        have hlate : c.late = some .endOfWindow := hend
        rw [Contents.put_same, closedIn_root hw.root_eq, hstate, EarlyAndLate.finished_root_fired,
          hsame, hlate, ← closedIn_root hw.root_eq, hw.unclosed]
        rfl
    · rw [Contents.put_other _ _ hu, hw.unclosed]
  refine ⟨h.root_eq.trans hw.root_eq, ?_, h.expired hw.expired, ?_⟩
  · cases h with
    | dropped => exact hw.active
    | taken => exact Std.ExtTreeSet.mem_insert.2 (.inr hw.active)
    | stalled hi =>
      obtain ⟨ts, rfl⟩ := hi
      exact hw.active
    | fired => rw [fired_active]; exact hw.active
    | forced => rw [fired_active]; exact hw.active
    | advanced t => rw [advance_active]; exact hw.active
    | collected _ _ hidle =>
      refine mem_collected_active.2 ⟨hw.active, ?_⟩
      rintro rfl
      cases hready.symm.trans hidle
  · rw [h.closedIn_eq]
    cases h with
    | dropped => exact hw.unclosed
    | @taken ws t u p hn =>
      have hu : w ≠ u := by
        rintro rfl
        unfold dropReason? at hn
        rw [if_pos hw.expired] at hn
        cases hn
      exact (congrArg v.closedIn (Contents.put_other _ _ hu)).trans hw.unclosed
    | stalled hi =>
      obtain ⟨ts, rfl⟩ := hi
      exact hw.unclosed
    | fired _ hp => rw [fired_store]; exact still hp
    | forced hp => rw [fired_store]; exact still hp
    | advanced t => rw [advance_store]; exact hw.unclosed
    | @collected u _ _ hidle =>
      have hu : w ≠ u := by
        rintro rfl
        cases hready.symm.trans hidle
      exact (congrArg v.closedIn (Contents.put_other _ _ hu)).trans hw.unclosed

section Steps

variable [StateStore σ] [LawfulStore σ] {r : Runner κ σ}

theorem run_lingering (ht : t.Customs CountsUp) (hend : t.RepeatsEnd) {ops : List Operation}
    (hops : ∀ op ∈ ops, op.Plain) (hw : Lingering t r.seen w) :
    Lingering t (r.run ops).seen w := by
  obtain ⟨-, ⟨es, hes, -⟩, -⟩ := run_leads hops r
  exact hes.keeps (fun _ he h => he.keeps_lingering ht hend h) hw

/-- An expired window that is fired if it is ready is garbage then, unless it lingers. -/
theorem garbage_of_fireIfReady (ht : t.Customs CountsUp) (hF : ¬LawfulStore.Faulty σ)
    (hroot : r.root = .root t) (hactive : w ∈ r.active) (hexpired : r.expired w = true) :
    ∃ o r', r.step (.fireIfReady w) = (.ok (.outcome o), r') ∧ r'.root = .root t ∧
      (¬(t.RepeatsEnd ∧ r.closedIn (r.seen.store w) = false) → r'.seen.Garbage w) := by
  have hret : t.Customs NeverFails := ht.mono fun _ hk => hk.returns
  obtain ⟨o, r', hr', hfire⟩ := fireIfReady_returns (r := r) (w := w) hF
    (fun _ he => readiness_returns (v := r.seen) hroot hret he)
    fun _ _ => firing_returns (v := r.seen) ht hroot
  refine ⟨o, r', step_of_ok (bind_of_ok hr'), ?_⟩
  rcases hfire with ⟨hidle, -, hsame⟩ | ⟨hready, p, hp, -, hfired⟩
  · refine ⟨(congrArg Runner.root hsame).trans hroot, fun _ => ?_⟩
    rw [hsame]
    exact ⟨hactive, hexpired, hidle⟩
  · have hforced := Occurs.forced hp
    have hroot' : (r.seen.fired w p).root = .root t := hforced.root_eq.trans hroot
    refine ⟨(congrArg Runner.root hfired).trans hroot', fun hkept => ?_⟩
    rw [hfired]
    refine ⟨by rw [fired_active]; exact hactive, hforced.expired hexpired, ?_⟩
    exact idle_of_fired ht hroot hexpired
      (fun hend => hkept ⟨hend, (readiness_true_iff.1 hready).1⟩) hp

/-- Over a compiled tree of counting triggers, an expired window is fired if it is ready and then
collected, unless it is open and its late child is the end of the window. In that case it stays
active and ready whatever is done. -/
theorem last_pane_frees {registry : String → Option κ}
    (hregistry : ∀ name k, registry name = some k → CountsUp k) {cfg : TriggerConfig}
    (hcfg : cfg.compile registry = .ok t) (hF : ¬LawfulStore.Faulty σ) (hroot : r.root = .root t)
    (hactive : w ∈ r.active) (hexpired : r.expired w = true) :
    (∃ o r₁ ws r₂, r.step (.fireIfReady w) = (.ok (.outcome o), r₁) ∧
      r₁.step .collect = (.ok (.windows ws), r₂) ∧
      (r₂.seen.Unused w ↔ ¬(t.RepeatsEnd ∧ r.closedIn (r.seen.store w) = false))) ∧
    (t.RepeatsEnd → r.closedIn (r.seen.store w) = false →
      ∀ ops : List Operation, (∀ op ∈ ops, op.Plain) → w ∈ (r.run ops).active ∧
        ((r.run ops).step (.shouldFire w)).1 = .ok (.flag true)) := by
  have ht : t.Customs CountsUp := TriggerConfig.compile_customs hregistry hcfg
  have hret : t.Customs NeverFails := ht.mono fun _ hk => hk.returns
  have lingers : t.RepeatsEnd → r.closedIn (r.seen.store w) = false →
      ∀ ops : List Operation, (∀ op ∈ ops, op.Plain) → Lingering t (r.run ops).seen w :=
    fun hend hopen ops hops =>
      run_lingering ht hend hops ⟨hroot, hactive, hexpired, hopen⟩
  refine ⟨?_, fun hend hopen ops hops => ?_⟩
  · obtain ⟨o, r₁, h₁, hroot₁, hgarbage⟩ := garbage_of_fireIfReady ht hF hroot hactive hexpired
    obtain ⟨ws, r₂, h₂, -, hws, hseen⟩ := step_collect hret hF hroot₁
    refine ⟨o, r₁, ws, r₂, h₁, h₂, fun hunused hkept => ?_, fun hkept => ?_⟩
    · have hlast := lingers hkept.1 hkept.2 [.fireIfReady w, .collect] (by simp [Operation.Plain])
      have hrun : r.run [.fireIfReady w, .collect] = r₂ := by simp [run, h₁, h₂]
      rw [hrun] at hlast
      exact hunused.active hlast.active
    · rw [hseen]
      exact (foldl_collects ws r₁.seen).taken w ((hws w).2 (hgarbage hkept))
  · have hlast := lingers hend hopen ops hops
    exact ⟨hlast.active, (shouldFire_iff hF).2 (hlast.ready hret hend)⟩

/-- Two late elements make the last pane of the window, which has expired since. -/
theorem last_pane_frees_late_count :
    let k : ScriptedTrigger := { threshold := .clamp 2 }
    let registry : String → Option ScriptedTrigger := fun name =>
      if name = "two" then some k else none
    let t : Trigger ScriptedTrigger := .earlyAndLate ⟨.never, some (.custom k)⟩
    let w : Window := ⟨.clamp 0, .clamp 10⟩
    let r := (start t { allowedLateness := 5 } MemoryStore.empty).run
      [.element [w] (.clamp 3), .tick (.clamp 12), .element [w] (.clamp 4), .element [w] (.clamp 5),
        .advance (.clamp 20)]
    (TriggerConfig.afterWatermark none (some (.custom "two"))).compile registry = .ok t ∧
      (w ∈ r.active ∧ r.expired w = true) ∧ r.seen.readiness w = .ok true ∧
      ∃ o r₁ ws r₂, r.step (.fireIfReady w) = (.ok (.outcome o), r₁) ∧
        r₁.step .collect = (.ok (.windows ws), r₂) ∧ r₂.seen.Unused w := by
  intro k registry t w r
  have hregistry : ∀ name k', registry name = some k' → CountsUp k' := by
    intro name k' hk'
    have hk : CountsUp k := ScriptedTrigger.countsUp rfl rfl rfl (by decide)
    simp only [registry] at hk'
    split_ifs at hk'
    cases hk'
    exact hk
  have hcfg : (TriggerConfig.afterWatermark none (some (.custom "two"))).compile registry = .ok t :=
    rfl
  have hactive : w ∈ r.active := by decide +kernel
  have hexpired : r.expired w = true := by decide +kernel
  obtain ⟨⟨o, r₁, ws, r₂, h₁, h₂, hfrees⟩, -⟩ := last_pane_frees (σ := MemoryStore) (r := r)
    hregistry hcfg id (run_root _ _) hactive hexpired
  exact ⟨hcfg, ⟨hactive, hexpired⟩, by decide +kernel, o, r₁, ws, r₂, h₁, h₂,
    hfrees.2 fun h => by cases h.1⟩

/-- Where the late child is the end of the window, the pane at the end of an expired window is
emitted, and the collection after it keeps the window. -/
theorem window_kept_after_last_pane :
    let registry : String → Option ScriptedTrigger := fun _ => none
    let t : Trigger ScriptedTrigger := .earlyAndLate ⟨.never, some .endOfWindow⟩
    let w : Window := ⟨.clamp 0, .clamp 10⟩
    let r := (start t {} MemoryStore.empty).run [.element [w] (.clamp 3), .advance (.clamp 100)]
    let r' := r.run [.fireIfReady w, .collect]
    (TriggerConfig.afterWatermark none (some .endOfWindow)).compile registry = .ok t ∧
      (w ∈ r.active ∧ r.expired w = true) ∧ r.telemetry.firings = 0 ∧
      r'.telemetry.firings = 1 ∧ r'.telemetry.collected = 0 ∧ w ∈ r'.active ∧
      r'.seen.readiness w = .ok true := by
  intro registry t w r r'
  exact ⟨rfl, by decide +kernel, by decide +kernel, by decide +kernel, by decide +kernel,
    by decide +kernel, by decide +kernel⟩

end Steps

end Runner

end PaneTriggers
