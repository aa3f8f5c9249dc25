import PaneTriggers.Proofs.CountingMachine
import PaneTriggers.Proofs.RunnerSteps
import PaneTriggers.Proofs.TreeEffects

/-!
# Courses of events

Over a lawful store, what a run without merges does to a runner is a course of events: elements are
dropped or taken, windows are fired or collected, the watermark moves, and a step that fails stalls
at its window (`Runner.Occurs`). `Runner.run_leads` finds such a course for every run, failures
included. Of its events, the firings and collections are those that the answers tell of
(`Runner.history`), in the same order, unless the store is faulty or the tree fails to decide.
-/

namespace PaneTriggers

/-- Something that happens to a runner without merges. -/
inductive Event where
  | dropped (w : Window)
  | taken (w : Window)
  /-- A step about the window failed before the state of the window was saved. -/
  | stalled (w : Window)
  /-- The window was ready and is fired, which closes it or not. -/
  | fired (w : Window) (closed : Bool)
  /-- The window is fired, ready or not. -/
  | forced (w : Window)
  | advanced
  | collected (w : Window)
deriving DecidableEq

namespace Event

/-- The window that the event is about. -/
def window? : Event → Option Window
  | dropped w | taken w | stalled w | fired w _ | forced w | collected w => some w
  | advanced => none

/-- The window of which the event gives a pane. -/
def pane? : Event → Option Window
  | fired w _ | forced w => some w
  | _ => none

/-- Whether answers tell of the event. -/
def isTold : Event → Bool
  | fired _ _ | forced _ | collected _ => true
  | _ => false

theorem isTold_of_pane {e : Event} {w : Window} (h : e.pane? = some w) : e.isTold = true := by
  cases e with
  | fired | forced => rfl
  | dropped | taken | stalled | advanced | collected => cases h

end Event

/-- The events that the answer to an operation tells of. -/
def Operation.told : Operation → Except RunnerError Answer → List Event
  | .fire w, .ok _ => [.forced w]
  | .fireIfReady w, .ok (.outcome (.fired closed)) => [.fired w closed]
  | .collect, .ok (.windows ws) => ws.map .collected
  | _, _ => []

namespace Runner

variable {κ σ : Type} [CustomTrigger κ]

/-- The events that the answers of a run tell of. -/
def history [StateStore σ] (r : Runner κ σ) : List Operation → List Event
  | [] => []
  | op :: ops => op.told (r.step op).1 ++ history (r.step op).2 ops

/-- The event takes the first runner to the second. -/
inductive Occurs : Seen κ → Event → Seen κ → Prop where
  | dropped {v w reason} : v.dropReason? w = some reason →
      Occurs v (.dropped w) (v.dropped w reason)
  | taken {v ws t w p} : v.dropReason? w = none → v.taking ws t w = .ok () p →
      Occurs v (.taken w) (v.accepted t w p)
  | stalled {v w v'} : v.Interrupted w v' → Occurs v (.stalled w) v'
  | fired {v w p} : v.readiness w = .ok true → v.firing w = .ok () p →
      Occurs v (.fired w (v.closedIn p.state)) (v.fired w p)
  | forced {v w p} : v.firing w = .ok () p → Occurs v (.forced w) (v.fired w p)
  | advanced {v} (t) : Occurs v .advanced (v.advance t).2
  | collected {v w} : w ∈ v.active → v.expired w = true → v.readiness w = .ok false →
      Occurs v (.collected w) (v.collected w)

/-- The events in turn take the first runner to the second. -/
inductive Course : Seen κ → List Event → Seen κ → Prop where
  | nil (v) : Course v [] v
  | cons {v e u es v'} : Occurs v e u → Course u es v' → Course v (e :: es) v'

variable {v v' : Seen κ} {w : Window} {e : Event} {es es' : List Event}

/-! ## What an event leaves alone -/

theorem Occurs.settings_eq (h : Occurs v e v') : v'.root = v.root ∧
    v'.supportsMerging = v.supportsMerging ∧ v'.allowedLateness = v.allowedLateness := by
  cases h with
  | stalled hi =>
    obtain ⟨ts, rfl⟩ := hi
    exact ⟨rfl, rfl, rfl⟩
  | fired => exact ⟨fired_root, fired_supportsMerging, fired_allowedLateness⟩
  | forced => exact ⟨fired_root, fired_supportsMerging, fired_allowedLateness⟩
  | advanced t =>
    refine ⟨v.advance_root t, ?_⟩
    obtain ⟨-, ha⟩ | ⟨-, ha⟩ := v.advance_cases t <;> rw [ha] <;> exact ⟨rfl, rfl⟩
  | dropped => exact ⟨rfl, rfl, rfl⟩
  | taken => exact ⟨rfl, rfl, rfl⟩
  | collected => exact ⟨rfl, rfl, rfl⟩

theorem Occurs.root_eq (h : Occurs v e v') : v'.root = v.root := h.settings_eq.1

theorem Occurs.closedIn_eq (h : Occurs v e v') {s : WindowState} :
    v'.closedIn s = v.closedIn s := by
  unfold closedIn
  rw [h.root_eq]

theorem Occurs.watermark_eq (h : Occurs v e v') (he : e ≠ .advanced) :
    v'.watermark = v.watermark := by
  cases h with
  | stalled hi =>
    obtain ⟨ts, rfl⟩ := hi
    rfl
  | fired => exact fired_watermark
  | forced => exact fired_watermark
  | advanced t => exact absurd rfl he
  | dropped => rfl
  | taken => rfl
  | collected => rfl

/-- An event changes the state of no window but its own. -/
theorem Occurs.store_eq (h : Occurs v e v') (he : e.window? ≠ some w) :
    v'.store w = v.store w := by
  have other : ∀ {u : Window}, some u ≠ some w → w ≠ u := fun hu hw => hu (by rw [hw])
  cases h with
  | stalled hi =>
    obtain ⟨ts, rfl⟩ := hi
    rfl
  | fired => rw [fired_store, Contents.put_other _ _ (other he)]
  | forced => rw [fired_store, Contents.put_other _ _ (other he)]
  | advanced t => rw [advance_store]
  | dropped => rfl
  | taken => exact Contents.put_other _ _ (other he)
  | collected => exact Contents.put_other _ _ (other he)

/-- An event other than the watermark's decides about the readiness of no window but its own. -/
theorem Occurs.readiness_eq (h : Occurs v e v') (he : e.window? ≠ some w) (ha : e ≠ .advanced) :
    v'.readiness w = v.readiness w := by
  have hscope : v'.scope w = v.scope w := by
    unfold scope
    rw [h.watermark_eq ha, h.settings_eq.2.1]
  exact readiness_congr h.root_eq hscope (h.store_eq he)

/-- What has expired stays so. -/
theorem Occurs.expired (h : Occurs v e v') (hw : v.expired w = true) : v'.expired w = true := by
  have hg : v'.guarantee w = v.guarantee w := by
    unfold guarantee
    rw [h.root_eq]
  rw [expired_iff, hg, h.settings_eq.2.2]
  by_cases ha : e = .advanced
  · subst ha
    cases h with
    | advanced t => exact passed_advance (expired_iff.1 hw)
  · rw [h.watermark_eq ha]
    exact expired_iff.1 hw

/-! ## Courses -/

theorem Course.append {u : Seen κ} (h : Course v es u) (h' : Course u es' v') :
    Course v (es ++ es') v' := by
  induction h with
  | nil => exact h'
  | cons he _ ih => exact .cons he (ih h')

theorem Course.split : ∀ {es : List Event} {v : Seen κ}, Course v (es ++ es') v' →
    ∃ u, Course v es u ∧ Course u es' v'
  | [], v, h => ⟨v, .nil v, h⟩
  | _ :: _, _, .cons he h =>
    have ⟨u, h₁, h₂⟩ := h.split
    ⟨u, .cons he h₁, h₂⟩

theorem Course.root_eq (h : Course v es v') : v'.root = v.root := by
  induction h with
  | nil => rfl
  | cons he _ ih => exact ih.trans he.root_eq

/-- What each of its events keeps is kept by a course. -/
theorem Course.keeps {J : Seen κ → Prop} (h : Course v es v')
    (hJ : ∀ {v e v'}, e ∈ es → Occurs v e v' → J v → J v') (hv : J v) : J v' := by
  induction h with
  | nil => exact hv
  | cons he _ ih =>
    exact ih (fun hm => hJ (List.mem_cons_of_mem _ hm)) (hJ List.mem_cons_self he hv)

/-- A course leads from the first runner to the second, and these of its events are told. -/
def Leads (v : Seen κ) (told : List Event) (v' : Seen κ) : Prop :=
  ∃ es, Course v es v' ∧ es.filter Event.isTold = told

/-- The tree can fail to decide whether to fire. -/
def Undecided (v : Seen κ) : Prop :=
  ∃ (s : Scope) (w : WindowState) (e : TriggerError), s.Open ∧ v.root.ready s w = .error e

variable {u : Seen κ} {told told' : List Event}

theorem Leads.refl (v : Seen κ) : Leads v [] v := ⟨[], .nil v, rfl⟩

theorem Leads.trans (h : Leads v told u) (h' : Leads u told' v') : Leads v (told ++ told') v' := by
  obtain ⟨es, hc, rfl⟩ := h
  obtain ⟨es', hc', rfl⟩ := h'
  exact ⟨es ++ es', hc.append hc', List.filter_append ..⟩

theorem Leads.root_eq (h : Leads v told v') : v'.root = v.root := by
  obtain ⟨es, hc, -⟩ := h
  exact hc.root_eq

theorem Occurs.leads (h : Occurs v e v') : Leads v ([e].filter Event.isTold) v' :=
  ⟨[e], .cons h (.nil v'), rfl⟩

theorem Undecided.of_readiness {e : TriggerError} (h : v.readiness w = .error e) :
    v.Undecided := by
  unfold readiness at h
  split_ifs at h
  exact ⟨v.scope w, v.store w, e, v.scope_open w, h⟩

theorem Undecided.of_leads (hl : Leads v told v') (h : v'.Undecided) : v.Undecided := by
  unfold Undecided at h
  rwa [hl.root_eq] at h

/-- Triggers that never fail decide. -/
theorem not_undecided {t : Trigger κ} (ht : t.Customs NeverFails) (hroot : v.root = .root t) :
    ¬v.Undecided := by
  rintro ⟨s, w, e, hs, he⟩
  rw [hroot] at he
  obtain ⟨b, hb⟩ := Trigger.ready_returns (w := w) ht hs
  cases hb.symm.trans he

section Steps

variable [StateStore σ] [LawfulStore σ]

theorem deliver_leads {ws : List Window} {t : Timestamp} :
    Ensures (fun r : Runner κ σ => Leads v [] r.seen) (deliver ws t w)
      (fun _ r => Leads v [] r.seen) fun _ r => Leads v [] r.seen := by
  refine .of_each (f := seen) fun u hu => deliver_ensures.mono (fun _ h => h) ?_ ?_
  · rintro _ r (⟨reason, hreason, hr⟩ | ⟨hn, p, hp, hr⟩)
    · rw [hr]
      exact hu.trans (Occurs.dropped hreason).leads
    · rw [hr]
      exact hu.trans (Occurs.taken hn hp).leads
  · rintro _ r ⟨-, hr⟩
    exact hu.trans (Occurs.stalled hr).leads

theorem processElement_leads {ws : List Window} {t : Timestamp} :
    Ensures (fun r : Runner κ σ => r.seen = v) (processElement ws t)
      (fun _ r => Leads v [] r.seen) fun _ r => Leads v [] r.seen :=
  (Ensures.forM fun _ _ => deliver_leads).mono (fun _ hr => hr ▸ .refl v) (fun _ _ h => h)
    fun _ _ h => h

theorem onFire_leads :
    Ensures (fun r : Runner κ σ => r.seen = v) (onFire w) (fun _ r => Leads v [.forced w] r.seen)
      fun _ r => Leads v [] r.seen := by
  refine onFire_ensures.mono (fun _ h => h) ?_ ?_
  · rintro _ r ⟨p, hp, hr⟩
    rw [hr]
    exact (Occurs.forced hp).leads
  · rintro _ r ⟨-, hr⟩
    exact (Occurs.stalled hr).leads

theorem fireIfReady_leads :
    Ensures (fun r : Runner κ σ => r.seen = v) (fireIfReady w)
      (fun o r => Leads v (Operation.told (.fireIfReady w) (.ok (.outcome o))) r.seen)
      fun _ r => ∃ told, Leads v told r.seen ∧ (told = [] ∨ LawfulStore.Faulty σ) := by
  refine .bind (shouldFire_ensures.onFail fun _ r h => ⟨[], h.2 ▸ .refl _, .inl rfl⟩) fun b => ?_
  refine .of_fact fun hb => .ite (fun ht => ?_) fun _ => .pure fun r hr => hr ▸ .refl _
  subst ht
  refine .bind (onFire_ensures.onFail fun _ r h => ⟨[], (Occurs.stalled h.2).leads, .inl rfl⟩)
    fun _ r hr => ?_
  obtain ⟨p, hp, hr⟩ := hr
  have hfired := (Occurs.fired hb hp).leads
  refine Ensures.bind (P := fun r : Runner κ σ => r.seen = v.fired w p)
    (isClosed_ensures.onFail fun _ r h => ⟨_, h.2 ▸ hfired, .inr h.1⟩)
    (fun c => .pure fun r h => ?_) r hr
  have hclosed : c = v.closedIn p.state := by
    rw [h.1, fired_store, Contents.put_same]
    unfold closedIn
    rw [fired_root]
  rw [h.2, hclosed]
  exact hfired

theorem collectEach_leads : ∀ {ws : List Window} {v : Seen κ}, ws.Nodup →
    (∀ w ∈ ws, w ∈ v.active ∧ v.expired w = true) →
    Ensures (fun r : Runner κ σ => r.seen = v) (collectEach ws)
      (fun us r => Leads v (us.map .collected) r.seen)
      fun _ r => ∃ told, Leads v told r.seen ∧ (LawfulStore.Faulty σ ∨ v.Undecided)
  | [], v, _, _ => .pure fun r hr => hr ▸ .refl v
  | w :: ws, v, hnd, hws => by
    obtain ⟨hw, hnd⟩ := List.nodup_cons.1 hnd
    obtain ⟨hactive, hexpired⟩ := hws w List.mem_cons_self
    have hrest : ∀ u ∈ ws, u ∈ v.active ∧ v.expired u = true :=
      fun u hu => hws u (List.mem_cons_of_mem _ hu)
    refine .bind (shouldFire_ensures.onFail fun _ r h => ⟨[], h.2 ▸ .refl _, h.1.imp_right
      fun ⟨_, he⟩ => .of_readiness he⟩) fun b => .of_fact fun hb => ?_
    refine .ite (fun _ => collectEach_leads hnd hrest) fun hf => ?_
    have hcollected : Occurs v (.collected w) (v.collected w) :=
      .collected hactive hexpired (by rw [hb, Bool.eq_false_iff.2 hf])
    -- The windows after `w` are none of them `w`, so they are still active.
    have hrest' : ∀ u ∈ ws, u ∈ (v.collected w).active ∧ (v.collected w).expired u = true :=
      fun u hu => ⟨mem_collected_active.2 ⟨(hrest u hu).1, fun h => hw (h ▸ hu)⟩,
        hcollected.expired (hrest u hu).2⟩
    refine .bind (collect_ensures.onFail fun _ r h => ⟨[], h.2 ▸ .refl _, .inl h.1⟩) fun _ => ?_
    refine .bind ((collectEach_leads hnd hrest').onFail ?_)
      fun us => .pure fun r hr => hcollected.leads.trans hr
    rintro _ r ⟨told, hl, hcause⟩
    exact ⟨_, hcollected.leads.trans hl, hcause⟩

theorem garbageCollect_leads :
    Ensures (fun r : Runner κ σ => r.seen = v) garbageCollect
      (fun us r => Leads v (us.map .collected) r.seen)
      fun _ r => ∃ told, Leads v told r.seen ∧ (LawfulStore.Faulty σ ∨ v.Undecided) := by
  refine .bind (Q := fun a r => a.seen = v ∧ r.seen = v) (.get fun r h => ⟨h, h⟩) fun a => ?_
  refine .of_fact ?_
  rintro rfl
  have hmem : ∀ w ∈ a.active.toList.filter a.expired, w ∈ a.active ∧ a.expired w = true :=
    fun w hw => (List.mem_filter.1 hw).imp_left Std.ExtTreeSet.mem_toList.1
  exact collectEach_leads a.nodup_candidates hmem

/-- What an operation does is a course of events. Its answer tells of those that are told, and if it
fails it leaves none untold, unless the store is faulty or the tree cannot decide. -/
theorem perform_leads {op : Operation} (hop : op.Plain) :
    Ensures (fun r : Runner κ σ => r.seen = v) (perform op)
      (fun a r => Leads v (op.told (.ok a)) r.seen)
      fun _ r => ∃ told, Leads v told r.seen ∧
        (told = [] ∨ LawfulStore.Faulty σ ∨ v.Undecided) := by
  have still : ∀ {r : Runner κ σ}, r.seen = v → Leads v [] r.seen := fun hr => hr ▸ .refl v
  cases op with
  | element ws t =>
    exact .map (processElement_leads.onFail fun _ _ h => ⟨[], h, .inl rfl⟩)
  | merge ws d => exact hop.elim
  | advance t =>
    exact .bind advance_ensures fun _ => .pure fun r hr => hr.2 ▸ (Occurs.advanced t).leads
  | tick t => exact hop.elim
  | shouldFire w =>
    exact .bind (shouldFire_ensures.onFail fun _ _ h => ⟨[], still h.2, .inl rfl⟩)
      fun _ => .pure fun _ h => still h.2
  | fire w =>
    exact .map (onFire_leads.onFail fun _ _ h => ⟨[], h, .inl rfl⟩)
  | fireIfReady w =>
    refine .map (fireIfReady_leads.onFail ?_)
    rintro _ r ⟨told, hl, hcause⟩
    exact ⟨told, hl, hcause.imp_right .inl⟩
  | isClosed w =>
    exact .bind (isClosed_ensures.onFail fun _ _ h => ⟨[], still h.2, .inl rfl⟩)
      fun _ => .pure fun _ h => still h.2
  | windowState w => exact hop.elim
  | collect =>
    refine .map (garbageCollect_leads.onFail ?_)
    rintro _ r ⟨told, hl, hcause⟩
    exact ⟨told, hl, .inr hcause⟩

theorem step_leads {op : Operation} (hop : op.Plain) (r : Runner κ σ) :
    ∃ told, Leads r.seen told (r.step op).2.seen ∧
      (told = op.told (r.step op).1 ∨ LawfulStore.Faulty σ ∨ r.seen.Undecided) := by
  cases hx : perform op r with
  | ok a r' =>
    rw [step_of_ok hx]
    exact ⟨_, (perform_leads hop).of_ok rfl hx, .inl rfl⟩
  | error e r' =>
    rw [step_of_error hx]
    obtain ⟨told, hl, hcause⟩ := (perform_leads hop).of_error rfl hx
    have hnone : op.told (.error e) = [] := by cases op <;> rfl
    exact ⟨told, hl, by rwa [hnone]⟩

/-- What a run does is a course of events. Its history has those that are told, unless the store is
faulty or the tree cannot decide. -/
theorem run_leads : ∀ {ops : List Operation}, (∀ op ∈ ops, op.Plain) → ∀ r : Runner κ σ,
    ∃ told, Leads r.seen told (r.run ops).seen ∧
      (told = r.history ops ∨ LawfulStore.Faulty σ ∨ r.seen.Undecided)
  | [], _, r => ⟨[], .refl _, .inl rfl⟩
  | op :: ops, hops, r => by
    obtain ⟨told, hl, hcause⟩ := step_leads (hops op List.mem_cons_self) r
    obtain ⟨told', hl', hcause'⟩ := run_leads (fun o ho => hops o (List.mem_cons_of_mem _ ho))
      (r.step op).2
    refine ⟨told ++ told', hl.trans hl', ?_⟩
    rcases hcause with rfl | hcause
    · rcases hcause' with rfl | hcause'
      · exact .inl rfl
      · exact .inr (hcause'.imp_right fun h => h.of_leads hl)
    · exact .inr hcause

end Steps

end Runner

end PaneTriggers
