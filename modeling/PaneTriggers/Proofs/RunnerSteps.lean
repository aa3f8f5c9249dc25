import PaneTriggers.Runner.Operation
import PaneTriggers.Proofs.LawfulStore
import PaneTriggers.Proofs.TreeEffects

/-!
# What each step of a runner does

What shows of a runner (`Runner.seen`) is all of it but the inside of its store, of which the
contents show, and the record of hook calls. Over a lawful store, each step either does one of a
few things to what shows, or fails and leaves some timers of the window it was about. The lemmas
`deliver_ensures`, `shouldFire_ensures`, `onFire_ensures`, `fireIfReady_ensures`,
`merge_ensures` and `collect_ensures` say which, and all later results about runs rest on them.
-/

namespace PaneTriggers

/-- What shows of a runner. -/
abbrev Seen (κ : Type) := Runner κ Contents

namespace Runner

variable {κ σ : Type}

/-- The runner without the inside of its store and the record of calls. -/
def seen [StateStore σ] [LawfulStore σ] (r : Runner κ σ) : Seen κ where
  root := r.root
  store := LawfulStore.contents r.store
  timers := r.timers
  watermark := r.watermark
  supportsMerging := r.supportsMerging
  allowedLateness := r.allowedLateness
  active := r.active
  log := r.log
  telemetry := r.telemetry

/-- Counts and logs a dropped element. -/
def dropped (v : Seen κ) (w : Window) (reason : DropReason) : Seen κ :=
  { v with telemetry := v.telemetry.countDrop reason }.logged .debug w
    ("element dropped: " ++ reason.name)

/-- The timers that were asked for are set, and the one at the end of the window. -/
def armed (v : Seen κ) (w : Window) (ts : List (TimeDomain × Timestamp)) : Seen κ :=
  { v.withTimers w ts with timers := (v.withTimers w ts).timers.insert (.endOf w) }

/-- The tree took an element and left `p`. -/
def accepted (v : Seen κ) (t : Timestamp) (w : Window) (p : Progress κ) : Seen κ :=
  { v.armed w p.timers with
    store := v.store.put w p.state
    active := v.active.insert w
    telemetry := { v.telemetry with elements := v.telemetry.elements + 1 } }.logged .trace w
      ("element at " ++ t.text)

/-- The tree fired and left `p`. -/
def fired (v : Seen κ) (w : Window) (p : Progress κ) : Seen κ :=
  let v' := { v.withTimers w p.timers with
    store := v.store.put w p.state
    telemetry := { v.telemetry with firings := v.telemetry.firings + 1 } }.logged .info w
      "pane fired"
  if v.closedIn p.state then
    { v' with telemetry := { v'.telemetry with closed := v'.telemetry.closed + 1 } }.logged .info w
      "window closed"
  else v'

/-- The sources of a merge with their states. -/
def sources (v : Seen κ) (ws : List Window) : List MergeSource := ws.map fun w => ⟨w, v.store w⟩

/-- The state of the destination of a merge for which the tree left `s`. -/
def mergedState (v : Seen κ) (ws : List Window) (d : Window) (s : WindowState) : WindowState :=
  v.closeMerged (v.sources ws) d s

/-- The sources of a merge are gone, and its destination is what the tree left. -/
def replaced (v : Seen κ) (ws : List Window) (d : Window) (p : Progress κ) : Seen κ :=
  (ws.filter (· ≠ d)).foldl retire { v.withTimers d p.timers with
    store := v.store.commit ws d (v.mergedState ws d p.state) }

/-- The tree merged the windows `ws` into `d` and left `p`. -/
def merged (v : Seen κ) (ws : List Window) (d : Window) (p : Progress κ) : Seen κ :=
  let r := v.replaced ws d p
  { r with
    timers := if v.closedIn (v.mergedState ws d p.state) then r.timers
      else r.timers.insert (.endOf d)
    active := r.active.insert d
    telemetry := { r.telemetry with merges := r.telemetry.merges + 1 } }.logged .debug d
      ("merged " ++ toString ws.length ++ " windows")

/-- The window was collected. -/
def collected (v : Seen κ) (w : Window) : Seen κ :=
  { ({ v with store := v.store.put w .empty }).retire w with
    telemetry := { v.telemetry with collected := v.telemetry.collected + 1 } }.logged .debug w
      "trigger state collected"

/-- Why an element would not be handed to the tree. -/
def dropReason? [CustomTrigger κ] (v : Seen κ) (w : Window) : Option DropReason :=
  if v.expired w then some .pastAllowedLateness
  else if v.closedIn (v.store w) then some .windowClosed
  else none

/-- How an element is taken. -/
def taking [CustomTrigger κ] (v : Seen κ) (ws : List Window) (t : Timestamp) (w : Window) :
    EStateM.Result TriggerError (Progress κ) Unit :=
  v.root.onElement (v.scope w) t ws { state := v.store w }

/-- Whether a window can be fired. -/
def readiness [CustomTrigger κ] (v : Seen κ) (w : Window) : Except TriggerError Bool :=
  if v.closedIn (v.store w) then .ok false else v.root.ready (v.scope w) (v.store w)

/-- Whether a window would be found not ready. -/
def idle [CustomTrigger κ] (v : Seen κ) (w : Window) : Bool :=
  match v.readiness w with
  | .ok b => !b
  | .error _ => false

/-- How a window fires. -/
def firing [CustomTrigger κ] (v : Seen κ) (w : Window) :
    EStateM.Result TriggerError (Progress κ) Unit :=
  v.root.onFire (v.scope w) { state := v.store w }

/-- How windows merge. -/
def merging [CustomTrigger κ] (v : Seen κ) (ws : List Window) (d : Window) :
    EStateM.Result TriggerError (Progress κ) Unit :=
  v.root.onMerge (v.scope d) (v.sources ws) { state := .empty }

/-- What a step about `w` leaves when it fails before its state is saved. -/
def Interrupted (v : Seen κ) (w : Window) (v' : Seen κ) : Prop := ∃ ts, v' = v.withTimers w ts

theorem Interrupted.refl (v : Seen κ) (w : Window) : v.Interrupted w v := ⟨[], rfl⟩

theorem Interrupted.armed (v : Seen κ) (w : Window) (ts : List (TimeDomain × Timestamp)) :
    v.Interrupted w (v.armed w ts) := by
  refine ⟨ts ++ [(.eventTime, w.maxTimestamp)], ?_⟩
  unfold Runner.armed withTimers TimerQueue.insertAll
  simp only [List.map_append, List.foldl_append]
  rfl

/-! ## What the steps leave -/

theorem scope_open (v : Seen κ) (w : Window) : (v.scope w).Open := fun _ => rfl

theorem mem_insertAll {t : Timer} : ∀ {ts : List Timer} {q : TimerQueue},
    t ∈ q.insertAll ts ↔ t ∈ ts ∨ t ∈ q
  | [], q => by simp [TimerQueue.insertAll]
  | u :: ts, q => by
    rw [show q.insertAll (u :: ts) = (q.insert u).insertAll ts from rfl, mem_insertAll,
      TimerQueue.mem_insert, List.mem_cons, eq_comm (a := u)]
    tauto

theorem idle_iff [CustomTrigger κ] {v : Seen κ} {w : Window} :
    v.idle w = true ↔ v.readiness w = .ok false := by
  unfold idle
  rcases v.readiness w with e | b
  · simp
  · cases b <;> simp

theorem readiness_true_iff [CustomTrigger κ] {v : Seen κ} {w : Window} :
    v.readiness w = .ok true ↔
      v.closedIn (v.store w) = false ∧ v.root.ready (v.scope w) (v.store w) = .ok true := by
  unfold readiness
  cases v.closedIn (v.store w) <;> simp

theorem readiness_returns [CustomTrigger κ] {t : Trigger κ} {v : Seen κ} {w : Window}
    (hroot : v.root = .root t) (ht : t.Customs NeverFails) {e : TriggerError} :
    v.readiness w ≠ .error e := by
  intro he
  unfold readiness at he
  split_ifs at he
  rw [hroot] at he
  obtain ⟨b, hb⟩ := Trigger.ready_returns ht (v.scope_open w)
  cases hb.symm.trans he

theorem open_of_dropReason [CustomTrigger κ] {v : Seen κ} {w : Window}
    (h : v.dropReason? w = none) : v.closedIn (v.store w) = false := by
  by_contra hc
  simp only [Bool.not_eq_false] at hc
  unfold dropReason? at h
  rw [if_pos hc] at h
  split_ifs at h

theorem closedIn_root {t : Trigger κ} {v : Seen κ} {s : WindowState} (hroot : v.root = .root t) :
    v.closedIn s = s.finished .root := by
  unfold closedIn
  rw [hroot]
  rfl

/-- No window is offered for collection twice. -/
theorem nodup_candidates [CustomTrigger κ] (r : Runner κ σ) :
    (r.active.toList.filter r.expired).Nodup := by
  refine List.Pairwise.filter _ (r.active.distinct_toList.imp fun h => ?_)
  intro hx
  obtain rfl := hx
  exact h Std.ReflCmp.compare_self

theorem mem_collected_active {v : Seen κ} {u w : Window} :
    w ∈ (v.collected u).active ↔ w ∈ v.active ∧ w ≠ u := by
  rw [show (v.collected u).active = v.active.erase u from rfl, Std.ExtTreeSet.mem_erase]
  simp only [ne_eq, Std.LawfulEqOrd.compare_eq_iff_eq, eq_comm (a := u)]
  tauto

/-- Readiness depends on the tree, the surroundings and the state of the window. -/
theorem readiness_congr [CustomTrigger κ] {v v' : Seen κ} {w : Window} (hroot : v'.root = v.root)
    (hscope : v'.scope w = v.scope w) (hs : v'.store w = v.store w) :
    v'.readiness w = v.readiness w := by
  unfold readiness closedIn
  rw [hroot, hscope, hs]

theorem readiness_collected [CustomTrigger κ] {v : Seen κ} {u w : Window} (h : w ≠ u) :
    (v.collected u).readiness w = v.readiness w :=
  readiness_congr rfl rfl (Contents.put_other _ _ h)

/-- The windows that are woken are those of the timers that are drained. -/
theorem mem_woken {q : TimerQueue} {domain : TimeDomain} {now : Timestamp} {w : Window} :
    w ∈ ((q.drain domain now).1.map Timer.window).eraseDups ↔
      ∃ x ∈ q, TimerQueue.expires domain now x = true ∧ x.window = w := by
  simp only [List.mem_eraseDups, List.mem_map, TimerQueue.drain, List.mem_filter,
    TimerQueue.mem_toList, and_assoc]

/-- A watermark that is not later than the current one changes nothing. A later one drains the
timers it passed. -/
theorem advance_cases (r : Runner κ σ) (t : Timestamp) :
    (∃ now, r.watermark = some now ∧ t ≤ now) ∧ r.advance t = ([], r) ∨
    (∀ now, r.watermark = some now → now < t) ∧
      r.advance t = (((r.timers.drain .eventTime t).1.map Timer.window).eraseDups,
        { r with watermark := some t, timers := (r.timers.drain .eventTime t).2 }) := by
  unfold advance
  rcases hn : r.watermark with _ | now
  · exact .inr ⟨by simp, rfl⟩
  · by_cases ht : t ≤ now
    · refine .inl ⟨⟨now, rfl, ht⟩, if_pos (decide_eq_true ht)⟩
    · refine .inr ⟨?_, if_neg (by simpa using ht)⟩
      intro _ h
      obtain ⟨rfl⟩ := h
      rw [Timestamp.le_iff] at ht
      rw [Timestamp.lt_iff]
      omega

@[simp] theorem advance_root (r : Runner κ σ) (t : Timestamp) : (r.advance t).2.root = r.root := by
  obtain ⟨-, h⟩ | ⟨-, h⟩ := r.advance_cases t <;> rw [h]

@[simp] theorem advance_store (r : Runner κ σ) (t : Timestamp) :
    (r.advance t).2.store = r.store := by
  obtain ⟨-, h⟩ | ⟨-, h⟩ := r.advance_cases t <;> rw [h]

@[simp] theorem advance_active (r : Runner κ σ) (t : Timestamp) :
    (r.advance t).2.active = r.active := by
  obtain ⟨-, h⟩ | ⟨-, h⟩ := r.advance_cases t <;> rw [h]

/-- What the watermark has passed it has passed for good. -/
theorem passed_advance {r : Runner κ σ} {t x : Timestamp}
    (h : ∃ now, r.watermark = some now ∧ x < now) :
    ∃ now, (r.advance t).2.watermark = some now ∧ x < now := by
  obtain ⟨now, hn, hx⟩ := h
  obtain ⟨-, ha⟩ | ⟨ht, ha⟩ := r.advance_cases t
  · rw [ha]
    exact ⟨now, hn, hx⟩
  · rw [ha]
    have := ht now hn
    rw [Timestamp.lt_iff] at hx this
    exact ⟨t, rfl, Timestamp.lt_iff.2 (by omega)⟩

theorem endedBy_iff {w : Window} {o : Option Timestamp} :
    w.endedBy o = true ↔ ∃ now, o = some now ∧ w.maxTimestamp < now := by
  cases o <;> simp [Window.endedBy]

theorem expired_iff [CustomTrigger κ] {r : Runner κ σ} {w : Window} : r.expired w = true ↔
    ∃ now, r.watermark = some now ∧ (r.guarantee w).shift r.allowedLateness < now := by
  unfold expired
  cases r.watermark <;> simp

theorem endedBy_advance {r : Runner κ σ} {t : Timestamp} {w : Window}
    (h : w.endedBy r.watermark = true) : w.endedBy (r.advance t).2.watermark = true :=
  endedBy_iff.2 (passed_advance (endedBy_iff.1 h))

section Fired

variable {v : Seen κ} {w : Window} {p : Progress κ}

@[simp] theorem fired_root : (v.fired w p).root = v.root := by
  unfold fired
  dsimp only
  split_ifs <;> rfl

@[simp] theorem fired_store : (v.fired w p).store = v.store.put w p.state := by
  unfold fired
  dsimp only
  split_ifs <;> rfl

@[simp] theorem fired_timers : (v.fired w p).timers = (v.withTimers w p.timers).timers := by
  unfold fired
  dsimp only
  split_ifs <;> rfl

@[simp] theorem fired_watermark : (v.fired w p).watermark = v.watermark := by
  unfold fired
  dsimp only
  split_ifs <;> rfl

@[simp] theorem fired_supportsMerging : (v.fired w p).supportsMerging = v.supportsMerging := by
  unfold fired
  dsimp only
  split_ifs <;> rfl

@[simp] theorem fired_allowedLateness : (v.fired w p).allowedLateness = v.allowedLateness := by
  unfold fired
  dsimp only
  split_ifs <;> rfl

@[simp] theorem fired_telemetry : (v.fired w p).telemetry = { v.telemetry with
    firings := v.telemetry.firings + 1
    closed := if v.closedIn p.state then v.telemetry.closed + 1 else v.telemetry.closed } := by
  unfold fired
  dsimp only
  split_ifs <;> rfl

@[simp] theorem fired_active : (v.fired w p).active = v.active := by
  unfold fired
  dsimp only
  split_ifs <;> rfl

end Fired

section Merged

variable {v : Seen κ} {ws : List Window} {d : Window} {p : Progress κ}

/-- Retiring windows changes only timers and the active windows. -/
theorem foldl_retire : ∀ (ws : List Window) (v : Seen κ), ∃ q a,
    ws.foldl retire v = { v with timers := q, active := a } ∧
    (∀ t, t ∈ q ↔ t ∈ v.timers ∧ t.window ∉ ws) ∧ ∀ w, w ∈ a ↔ w ∈ v.active ∧ w ∉ ws
  | [], v => ⟨v.timers, v.active, rfl, by simp, by simp⟩
  | u :: ws, v => by
    obtain ⟨q, a, h, hq, ha⟩ := foldl_retire ws (v.retire u)
    refine ⟨q, a, h, fun t => ?_, fun w => ?_⟩
    · rw [hq, show (v.retire u).timers = v.timers.deleteWindow u from rfl,
        TimerQueue.mem_deleteWindow, List.mem_cons]
      tauto
    · rw [ha, show (v.retire u).active = v.active.erase u from rfl, Std.ExtTreeSet.mem_erase,
        List.mem_cons]
      simp only [ne_eq, Std.LawfulEqOrd.compare_eq_iff_eq, eq_comm (a := u)]
      tauto

/-- Collecting windows forgets their states and timers, and they are no longer active. -/
theorem foldl_collected : ∀ (ws : List Window) (v : Seen κ), ∃ q a l,
    ws.foldl collected v = { v with
      store := fun w => if w ∈ ws then .empty else v.store w
      timers := q
      active := a
      log := l
      telemetry := { v.telemetry with collected := v.telemetry.collected + ws.length } } ∧
    (∀ t, t ∈ q ↔ t ∈ v.timers ∧ t.window ∉ ws) ∧ ∀ w, w ∈ a ↔ w ∈ v.active ∧ w ∉ ws
  | [], v => ⟨v.timers, v.active, v.log, by simp, by simp, by simp⟩
  | u :: ws, v => by
    obtain ⟨q, a, l, h, hq, ha⟩ := foldl_collected ws (v.collected u)
    refine ⟨q, a, l, ?_, fun t => ?_, fun w => ?_⟩
    · rw [List.foldl_cons, h]
      have hstore : (fun w => if w ∈ ws then WindowState.empty else (v.collected u).store w) =
          fun w => if w ∈ u :: ws then .empty else v.store w := by
        funext w
        rw [show (v.collected u).store = v.store.put u .empty from rfl]
        by_cases hu : w = u <;> simp [Contents.put, hu]
      rw [hstore, List.length_cons, Nat.add_comm ws.length 1, ← Nat.add_assoc]
      rfl
    · rw [hq, show (v.collected u).timers = v.timers.deleteWindow u from rfl,
        TimerQueue.mem_deleteWindow, List.mem_cons]
      tauto
    · rw [ha, show (v.collected u).active = v.active.erase u from rfl, Std.ExtTreeSet.mem_erase,
        List.mem_cons]
      simp only [ne_eq, Std.LawfulEqOrd.compare_eq_iff_eq, eq_comm (a := u)]
      tauto

theorem replaced_eq (v : Seen κ) (ws : List Window) (d : Window) (p : Progress κ) : ∃ q a,
    v.replaced ws d p = { v with
      store := v.store.commit ws d (v.mergedState ws d p.state)
      timers := q
      active := a } ∧
    (∀ t, t ∈ q ↔ t ∈ (v.withTimers d p.timers).timers ∧ (t.window ∈ ws → t.window = d)) ∧
    ∀ w, w ∈ a ↔ w ∈ v.active ∧ (w ∈ ws → w = d) := by
  obtain ⟨q, a, h, hq, ha⟩ := foldl_retire (ws.filter (· ≠ d)) { v.withTimers d p.timers with
    store := v.store.commit ws d (v.mergedState ws d p.state) }
  refine ⟨q, a, h, fun t => ?_, fun w => ?_⟩
  · rw [hq]
    simp [List.mem_filter]
  · rw [ha]
    simp [List.mem_filter, withTimers]

@[simp] theorem merged_root : (v.merged ws d p).root = v.root := by
  obtain ⟨q, a, h, -, -⟩ := v.replaced_eq ws d p
  have hr : (v.replaced ws d p).root = v.root := by rw [h]
  exact hr

@[simp] theorem merged_store :
    (v.merged ws d p).store = v.store.commit ws d (v.mergedState ws d p.state) := by
  obtain ⟨q, a, h, -, -⟩ := v.replaced_eq ws d p
  exact congrArg store h

theorem merged_store_destination : (v.merged ws d p).store d = v.mergedState ws d p.state := by
  rw [merged_store]
  exact if_pos rfl

@[simp] theorem merged_watermark : (v.merged ws d p).watermark = v.watermark := by
  obtain ⟨q, a, h, -, -⟩ := v.replaced_eq ws d p
  have hr : (v.replaced ws d p).watermark = v.watermark := by rw [h]
  exact hr

@[simp] theorem merged_allowedLateness :
    (v.merged ws d p).allowedLateness = v.allowedLateness := by
  obtain ⟨q, a, h, -, -⟩ := v.replaced_eq ws d p
  have hr : (v.replaced ws d p).allowedLateness = v.allowedLateness := by rw [h]
  exact hr

theorem mem_merged_timers {t : Timer} : t ∈ (v.merged ws d p).timers ↔
    (v.closedIn (v.mergedState ws d p.state) = false ∧ t = .endOf d) ∨
      t ∈ (v.withTimers d p.timers).timers ∧ (t.window ∈ ws → t.window = d) := by
  obtain ⟨q, a, h, hq, -⟩ := v.replaced_eq ws d p
  have ht : (v.replaced ws d p).timers = q := congrArg timers h
  unfold merged
  show t ∈ (if _ then _ else _ : TimerQueue) ↔ _
  rw [ht]
  split_ifs with hc
  · simp [hc, hq]
  · simp [hc, hq, TimerQueue.mem_insert, eq_comm (a := Timer.endOf d)]

theorem mem_merged_active {w : Window} :
    w ∈ (v.merged ws d p).active ↔ w = d ∨ w ∈ v.active ∧ w ∉ ws := by
  obtain ⟨q, a, h, -, ha⟩ := v.replaced_eq ws d p
  have hr : (v.replaced ws d p).active = a := congrArg active h
  unfold merged
  show w ∈ (v.replaced ws d p).active.insert d ↔ _
  rw [hr, Std.ExtTreeSet.mem_insert, Std.LawfulEqOrd.compare_eq_iff_eq, ha, eq_comm]
  tauto

end Merged

section Steps

/-- A call of the store keeps what does not depend on the store. -/
theorem usingStore_keeps {α : Type} {P : Runner κ σ → Prop}
    (hP : ∀ r m, P r → P { r with store := m }) {act : EStateM StoreError σ α} :
    Ensures P (usingStore act) (fun _ => P) fun _ => P := by
  intro r hr
  unfold usingStore
  cases act r.store with
  | ok a m => exact hP r m hr
  | error e m => exact hP r m hr

variable [StateStore σ] [LawfulStore σ] {v : Seen κ} {w : Window}

theorem seen_foldl_retire : ∀ (ws : List Window) (r : Runner κ σ),
    (ws.foldl retire r).seen = ws.foldl retire r.seen
  | [], _ => rfl
  | w :: ws, r => seen_foldl_retire ws (r.retire w)

/-- A call of the store that keeps to its contents changes nothing else of the runner. -/
theorem usingStore_ensures {α : Type} {act : EStateM StoreError σ α} {B : α → Contents → Prop}
    {C : Contents → Prop} (h : Ensures (fun m => LawfulStore.contents m = v.store) act
      (fun a m => B a (LawfulStore.contents m)) fun _ m => C (LawfulStore.contents m)) :
    Ensures (fun r : Runner κ σ => r.seen = v) (usingStore act)
      (fun a r => ∃ g, B a g ∧ r.seen = { v with store := g })
      fun _ r => ∃ g, C g ∧ r.seen = { v with store := g } := by
  intro r hx
  obtain rfl := hx
  have h := h r.store rfl
  unfold usingStore
  cases hr : act r.store with
  | ok a m => rw [hr] at h; exact ⟨_, h, rfl⟩
  | error e m => rw [hr] at h; exact ⟨_, h, rfl⟩

theorem windowState_ensures :
    Ensures (fun r : Runner κ σ => r.seen = v) (windowState w)
      (fun s r => s = v.store w ∧ r.seen = v)
      fun _ r => LawfulStore.Faulty σ ∧ r.seen = v := by
  refine (usingStore_ensures (B := fun s g => s = v.store w ∧ g = v.store)
    (C := fun g => LawfulStore.Faulty σ ∧ g = v.store) (LawfulStore.load_ensures w v.store)).mono
    (fun _ h => h) ?_ ?_
  · intro s r hx
    obtain ⟨g, ⟨hs, rfl⟩, hr⟩ := hx
    exact ⟨hs, hr⟩
  · intro e r hx
    obtain ⟨g, ⟨hF, rfl⟩, hr⟩ := hx
    exact ⟨hF, hr⟩

theorem save_ensures {s : WindowState} :
    Ensures (fun r : Runner κ σ => r.seen = v) (usingStore (StateStore.save w s))
      (fun _ r => r.seen = { v with store := v.store.put w s })
      fun _ r => LawfulStore.Faulty σ ∧ r.seen = v := by
  refine (usingStore_ensures (B := fun _ g => g = v.store.put w s)
    (C := fun g => LawfulStore.Faulty σ ∧ g = v.store) (LawfulStore.save_ensures w s v.store)).mono
    (fun _ h => h) ?_ ?_
  · intro _ r hx
    obtain ⟨g, rfl, hr⟩ := hx
    exact hr
  · intro e r hx
    obtain ⟨g, ⟨hF, rfl⟩, hr⟩ := hx
    exact ⟨hF, hr⟩

theorem isClosed_ensures :
    Ensures (fun r : Runner κ σ => r.seen = v) (isClosed w)
      (fun b r => b = v.closedIn (v.store w) ∧ r.seen = v)
      fun _ r => LawfulStore.Faulty σ ∧ r.seen = v := by
  refine .bind windowState_ensures fun s => .of_fact ?_
  intro hx
  obtain rfl := hx
  refine .bind (Q := fun a r => a.seen = v ∧ r.seen = v) (.get fun r h => ⟨h, h⟩) fun a => ?_
  refine .pure fun r h => ⟨?_, h.2⟩
  rw [← h.1]
  rfl

theorem evaluating_ensures {s : WindowState} {act : Scope → Node κ → Eval κ Unit} :
    Ensures (fun r : Runner κ σ => r.seen = v) (evaluating w s act)
      (fun s' r => ∃ p, act (v.scope w) v.root { state := s } = .ok () p ∧ s' = p.state ∧
        r.seen = v.withTimers w p.timers)
      fun _ r => (∃ e p, act (v.scope w) v.root { state := s } = .error e p) ∧
        v.Interrupted w r.seen := by
  intro r hx
  obtain rfl := hx
  unfold evaluating
  cases h : act (r.scope w) r.root { state := s } with
  | ok _ p => exact ⟨p, h, rfl, rfl⟩
  | error e p => exact ⟨⟨e, p, h⟩, p.timers, rfl⟩

theorem loadSources_ensures : ∀ {ws : List Window},
    Ensures (fun r : Runner κ σ => r.seen = v) (loadSources ws)
      (fun ms r => ms = v.sources ws ∧ r.seen = v)
      fun _ r => LawfulStore.Faulty σ ∧ r.seen = v
  | [] => .pure fun _ hr => ⟨rfl, hr⟩
  | w :: ws => by
    refine .bind windowState_ensures fun s => .of_fact ?_
    intro hx
    obtain rfl := hx
    refine .bind loadSources_ensures fun ms => .pure fun r h => ⟨?_, h.2⟩
    rw [h.1]
    rfl

theorem collect_ensures :
    Ensures (fun r : Runner κ σ => r.seen = v) (collect w) (fun _ r => r.seen = v.collected w)
      fun _ r => LawfulStore.Faulty σ ∧ r.seen = v := by
  refine .bind ((usingStore_ensures (B := fun _ g => g = v.store.put w .empty)
    (C := fun g => LawfulStore.Faulty σ ∧ g = v.store)
    (LawfulStore.discard_ensures w v.store)).onFail ?_) fun _ => .modify ?_
  · intro e r h
    obtain ⟨g, ⟨hF, rfl⟩, hr⟩ := h
    exact ⟨hF, hr⟩
  · intro r h
    obtain ⟨_, rfl, hr⟩ := h
    exact congrArg (fun u : Seen κ => { u.retire w with
      telemetry := { u.telemetry with collected := u.telemetry.collected + 1 } }.logged .debug w
        "trigger state collected") hr

theorem seen_advance (t : Timestamp) (r : Runner κ σ) :
    (r.seen.advance t).1 = (r.advance t).1 ∧ (r.seen.advance t).2 = (r.advance t).2.seen := by
  unfold advance
  rw [show r.seen.watermark = r.watermark from rfl]
  split_ifs
  · exact ⟨rfl, rfl⟩
  · exact ⟨rfl, rfl⟩

theorem advance_ensures {t : Timestamp} {E : RunnerError → Runner κ σ → Prop} :
    Ensures (fun r : Runner κ σ => r.seen = v) (modifyGet (advance t))
      (fun ws r => ws = (v.advance t).1 ∧ r.seen = (v.advance t).2) E := by
  intro r h
  obtain rfl := h
  obtain ⟨h₁, h₂⟩ := seen_advance t r
  exact ⟨h₁.symm, h₂.symm⟩

theorem drop_ensures {reason : DropReason} {E : RunnerError → Runner κ σ → Prop} :
    Ensures (fun r : Runner κ σ => r.seen = v) (drop w reason)
      (fun _ r => r.seen = v.dropped w reason) E :=
  .modify fun _ hr => congrArg (dropped · w reason) hr

variable [CustomTrigger κ]

theorem shouldFire_ensures :
    Ensures (fun r : Runner κ σ => r.seen = v) (shouldFire w)
      (fun b r => v.readiness w = .ok b ∧ r.seen = v)
      fun _ r => (LawfulStore.Faulty σ ∨ ∃ e, v.readiness w = .error e) ∧ r.seen = v := by
  refine .bind (windowState_ensures.onFail fun _ r h =>
    ⟨.inl h.1, h.2⟩) fun s => .of_fact ?_
  intro hx
  obtain rfl := hx
  refine .bind (Q := fun a r => a.seen = v ∧ r.seen = v) (.get fun r h => ⟨h, h⟩) fun a => ?_
  refine .of_fact ?_
  intro hx
  obtain rfl := hx
  refine .ite (fun h => .pure fun r hr => ⟨if_pos h, hr⟩) fun h => ?_
  have hopen : a.seen.readiness w = a.root.ready (a.scope w) (a.seen.store w) := if_neg h
  rw [hopen]
  refine .bind (Q := fun _ r => r.seen = a.seen) (.set fun _ _ => rfl) fun _ => ?_
  cases a.root.ready (a.scope w) (a.seen.store w) with
  | ok b => exact .pure fun r hr => ⟨rfl, hr⟩
  | error e => exact .throw fun r hr => ⟨.inr ⟨e, rfl⟩, hr⟩

/-- An element is dropped, for the reason that shows, or taken by the tree. -/
theorem deliver_ensures {ws : List Window} {t : Timestamp} :
    Ensures (fun r : Runner κ σ => r.seen = v) (deliver ws t w)
      (fun _ r => (∃ reason, v.dropReason? w = some reason ∧ r.seen = v.dropped w reason) ∨
        v.dropReason? w = none ∧ ∃ p, v.taking ws t w = .ok () p ∧ r.seen = v.accepted t w p)
      fun _ r => (LawfulStore.Faulty σ ∨
          v.dropReason? w = none ∧ ∃ e p, v.taking ws t w = .error e p) ∧
        v.Interrupted w r.seen := by
  refine .bind (Q := fun a r => a.seen = v ∧ r.seen = v) (.get fun r h => ⟨h, h⟩) fun a => ?_
  refine .of_fact ?_
  intro hx
  obtain rfl := hx
  refine .ite (fun he => drop_ensures.onReturn fun _ r h => .inl ⟨_, if_pos he, h⟩)
    fun he => ?_
  refine .bind (windowState_ensures.onFail fun _ r h =>
    ⟨.inl h.1, by rw [h.2]; exact .refl _ _⟩) fun s => .of_fact ?_
  intro hx
  obtain rfl := hx
  refine .bind (Q := fun b r => b.seen = a.seen ∧ r.seen = a.seen) (.get fun r h => ⟨h, h⟩)
    fun b => .of_fact fun hb => ?_
  have hclosed : b.closedIn (a.seen.store w) = a.seen.closedIn (a.seen.store w) := by
    rw [← hb]
    rfl
  rw [hclosed]
  refine .ite (fun hc => drop_ensures.onReturn fun _ r h =>
    .inl ⟨_, (if_neg he).trans (if_pos hc), h⟩) fun hc => ?_
  have hnone : a.seen.dropReason? w = none := (if_neg he).trans (if_neg hc)
  refine .bind (evaluating_ensures.onFail fun _ r h =>
    ⟨.inr ⟨hnone, h.1⟩, h.2⟩) fun s => ?_
  refine .bind (Q := fun _ r => ∃ p, a.seen.taking ws t w = .ok () p ∧ s = p.state ∧
    r.seen = a.seen.armed w p.timers) (.modify ?_) fun _ => ?_
  · intro r hx
    obtain ⟨p, hp, hs, hr⟩ := hx
    exact ⟨p, hp, hs,
      congrArg (fun v : Seen κ => { v with timers := v.timers.insert (.endOf w) }) hr⟩
  intro r hr
  obtain ⟨p, hp, rfl, hr⟩ := hr
  refine Ensures.bind (P := fun r : Runner κ σ => r.seen = a.seen.armed w p.timers)
    (save_ensures.onFail ?_) (fun _ => .modify ?_) r hr
  · intro _ r hx
    obtain ⟨hF, hr⟩ := hx
    exact ⟨.inl hF, by rw [hr]; exact .armed _ _ _⟩
  · intro r hr
    refine .inr ⟨hnone, p, hp, ?_⟩
    exact congrArg (fun v : Seen κ => { v with
      active := v.active.insert w
      telemetry := { v.telemetry with elements := v.telemetry.elements + 1 } }.logged .trace w
        ("element at " ++ t.text)) hr

theorem onFire_ensures :
    Ensures (fun r : Runner κ σ => r.seen = v) (onFire w)
      (fun _ r => ∃ p, v.firing w = .ok () p ∧ r.seen = v.fired w p)
      fun _ r => (LawfulStore.Faulty σ ∨ ∃ e p, v.firing w = .error e p) ∧
        v.Interrupted w r.seen := by
  refine .bind (windowState_ensures.onFail fun _ r h =>
    ⟨.inl h.1, by rw [h.2]; exact .refl _ _⟩) fun s => .of_fact ?_
  intro hx
  obtain rfl := hx
  refine .bind (evaluating_ensures.onFail fun _ r h =>
    ⟨.inr h.1, h.2⟩) fun s => ?_
  intro r hr
  obtain ⟨p, hp, rfl, hr⟩ := hr
  refine Ensures.bind (P := fun r : Runner κ σ => r.seen = v.withTimers w p.timers)
    (Q := fun a r => a.seen = v.withTimers w p.timers ∧ r.seen = v.withTimers w p.timers)
    (.get fun r h => ⟨h, h⟩) (fun a => .of_fact fun ha => ?_) r hr
  have hclosed : a.closedIn p.state = v.closedIn p.state :=
    congrArg (fun u : Seen κ => u.closedIn p.state) ha
  rw [hclosed]
  refine .bind (save_ensures.onFail fun _ r h =>
    ⟨.inl h.1, ⟨p.timers, h.2⟩⟩) fun _ => ?_
  refine .bind (Q := fun _ r => r.seen = { v.withTimers w p.timers with
    store := v.store.put w p.state
    telemetry := { v.telemetry with firings := v.telemetry.firings + 1 } }.logged .info w
      "pane fired") (.modify fun r h => ?_) fun _ => ?_
  · exact congrArg (fun u : Seen κ =>
      { u with telemetry := { u.telemetry with firings := u.telemetry.firings + 1 } }.logged .info w
        "pane fired") h
  · refine .ite (fun hc => .modify fun r h => ⟨p, hp, ?_⟩) fun hc => .pure fun r h => ⟨p, hp, ?_⟩
    · rw [show v.fired w p = _ from if_pos hc]
      exact congrArg (fun u : Seen κ =>
        { u with telemetry := { u.telemetry with closed := u.telemetry.closed + 1 } }.logged .info w
          "window closed") h
    · rw [show v.fired w p = _ from if_neg hc]
      exact h

/-- A window is fired if its tree is ready. What fails after the firing leaves it fired. -/
theorem fireIfReady_ensures :
    Ensures (fun r : Runner κ σ => r.seen = v) (fireIfReady w)
      (fun o r => v.readiness w = .ok false ∧ o = .notReady ∧ r.seen = v ∨
        v.readiness w = .ok true ∧ ∃ p, v.firing w = .ok () p ∧
          o = .fired (v.closedIn p.state) ∧ r.seen = v.fired w p)
      fun _ r => (LawfulStore.Faulty σ ∨ (∃ e, v.readiness w = .error e) ∨
          v.readiness w = .ok true ∧ ∃ e p, v.firing w = .error e p) ∧
        (v.Interrupted w r.seen ∨ ∃ p, v.firing w = .ok () p ∧ r.seen = v.fired w p) := by
  refine .bind (shouldFire_ensures.onFail fun _ r h =>
    ⟨h.1.imp_right .inl, .inl (by rw [h.2]; exact .refl _ _)⟩) fun b => ?_
  refine .of_fact fun hb => .ite (fun ht => ?_) fun hf => ?_
  · rw [ht] at hb
    refine .bind (onFire_ensures.onFail fun _ r h =>
      ⟨h.1.imp_right fun he => .inr ⟨hb, he⟩, .inl h.2⟩) fun _ => ?_
    intro r hr
    obtain ⟨p, hp, hr⟩ := hr
    refine Ensures.bind (P := fun r : Runner κ σ => r.seen = v.fired w p)
      (isClosed_ensures.onFail fun _ r h =>
        ⟨.inl h.1, .inr ⟨p, hp, h.2⟩⟩) (fun c => .pure fun r h => .inr ⟨hb, p, hp, ?_, h.2⟩) r hr
    rw [h.1, fired_store, Contents.put_same]
    unfold closedIn
    rw [fired_root]
  · have hf : b = false := Bool.eq_false_iff.2 hf
    rw [hf] at hb
    exact .pure fun r hr => .inl ⟨hb, rfl, hr⟩

/-- Where nothing can fail, a window is fired if it is ready and left as it is if not. -/
theorem fireIfReady_returns {r : Runner κ σ} (hF : ¬LawfulStore.Faulty σ)
    (hready : ∀ e, r.seen.readiness w ≠ .error e) (hfire : ∀ e p, r.seen.firing w ≠ .error e p) :
    ∃ o r', fireIfReady w r = .ok o r' ∧
      (r.seen.readiness w = .ok false ∧ o = .notReady ∧ r'.seen = r.seen ∨
        r.seen.readiness w = .ok true ∧ ∃ p, r.seen.firing w = .ok () p ∧
          o = .fired (r.seen.closedIn p.state) ∧ r'.seen = r.seen.fired w p) := by
  refine (fireIfReady_ensures (v := r.seen)).returns ?_ rfl
  rintro _ _ ⟨hf | ⟨e, he⟩ | ⟨-, e, p, hp⟩, -⟩
  · exact hF hf
  · exact hready e he
  · exact hfire e p hp

/-- A merge leaves what the tree left. A failed one leaves timers of the destination, and may be
half done. -/
theorem merge_ensures {ws : List Window} {d : Window} :
    Ensures (fun r : Runner κ σ => r.seen = v) (merge ws d)
      (fun _ r => ∃ p, v.merging ws d = .ok () p ∧ r.seen = v.merged ws d p)
      fun _ r => (LawfulStore.Faulty σ ∨ ∃ e p, v.merging ws d = .error e p) ∧
        ∃ ts g, HalfMerged ws d v.store g ∧ r.seen = { v.withTimers d ts with store := g } := by
  refine .bind (loadSources_ensures.onFail fun _ r h =>
    ⟨.inl h.1, [], v.store, fun _ => .inl rfl, h.2⟩) fun ms => .of_fact ?_
  intro hx
  obtain rfl := hx
  refine .bind (evaluating_ensures.onFail ?_) fun s => ?_
  · intro _ r hx
    obtain ⟨he, ts, hts⟩ := hx
    exact ⟨.inr he, ts, v.store, fun _ => .inl rfl, hts⟩
  intro r hr
  obtain ⟨p, hp, rfl, hr⟩ := hr
  refine Ensures.bind (P := fun r : Runner κ σ => r.seen = v.withTimers d p.timers)
    (Q := fun a r => a.seen = v.withTimers d p.timers ∧ r.seen = v.withTimers d p.timers)
    (.get fun r h => ⟨h, h⟩) (fun a => .of_fact fun ha => ?_) r hr
  have hs : a.closeMerged (v.sources ws) d p.state = v.mergedState ws d p.state :=
    congrArg (fun u : Seen κ => u.closeMerged (v.sources ws) d p.state) ha
  rw [hs]
  refine .bind (Q := fun a r => a.seen = v.withTimers d p.timers ∧
    r.seen = v.withTimers d p.timers) (.get fun r h => ⟨h, h⟩) fun b => .of_fact fun hb => ?_
  have hclosed : b.closedIn (v.mergedState ws d p.state) =
      v.closedIn (v.mergedState ws d p.state) :=
    congrArg (fun u : Seen κ => u.closedIn (v.mergedState ws d p.state)) hb
  rw [hclosed]
  refine .bind ((usingStore_ensures (v := v.withTimers d p.timers)
    (B := fun _ g => g = v.store.commit ws d (v.mergedState ws d p.state))
    (C := fun g => LawfulStore.Faulty σ ∧ HalfMerged ws d v.store g)
    (LawfulStore.commit_ensures ws d _ v.store)).onFail ?_)
    fun _ => .modify ?_
  · intro _ r hx
    obtain ⟨g, ⟨hF, hg⟩, hr⟩ := hx
    exact ⟨.inl hF, p.timers, g, hg, hr⟩
  · intro r hx
    obtain ⟨_, rfl, hr⟩ := hx
    have hr : ((ws.filter (· ≠ d)).foldl retire r).seen = _ :=
      (seen_foldl_retire _ _).trans (congrArg ((ws.filter (· ≠ d)).foldl retire) hr)
    refine ⟨p, hp, congrArg (fun u : Seen κ => { u with
      timers := if v.closedIn (v.mergedState ws d p.state) then u.timers
        else u.timers.insert (.endOf d)
      active := u.active.insert d
      telemetry := { u.telemetry with merges := u.telemetry.merges + 1 } }.logged .debug d
        ("merged " ++ toString ws.length ++ " windows")) hr⟩

/-- Of several windows, those are collected that are not ready to fire. -/
theorem collectEach_ensures : ∀ {ws : List Window} {v : Seen κ}, ws.Nodup →
    Ensures (fun r : Runner κ σ => r.seen = v) (collectEach ws)
      (fun us r => us = ws.filter v.idle ∧ r.seen = us.foldl collected v)
      fun _ _ => LawfulStore.Faulty σ ∨ ∃ w ∈ ws, ∃ e, v.readiness w = .error e
  | [], v, _ => .pure fun _ hr => ⟨rfl, hr⟩
  | w :: ws, v, hnd => by
    obtain ⟨hw, hnd⟩ := List.nodup_cons.1 hnd
    refine .bind (shouldFire_ensures.onFail fun _ r h =>
      h.1.imp_right fun he => ⟨w, List.mem_cons_self, he⟩) fun b => .of_fact fun hb => ?_
    refine .ite (fun ht => ?_) fun hf => ?_
    · have hidle : v.idle w = false := by simp [idle, hb, ht]
      refine (collectEach_ensures hnd).mono (fun _ h => h) ?_ ?_
      · intro us r hx
        obtain ⟨rfl, hr⟩ := hx
        exact ⟨by simp [hidle], hr⟩
      · intro _ r hx
        rcases hx with hF | ⟨u, hu, he⟩
        · exact .inl hF
        · exact .inr ⟨u, List.mem_cons_of_mem _ hu, he⟩
    · have hidle : v.idle w = true := by simp [idle, hb, hf]
      -- The windows after `w` are none of them `w`, so its collection does not change them.
      have hsame : ∀ u ∈ ws, (v.collected w).readiness u = v.readiness u := fun u hu =>
        readiness_collected fun h => hw (h ▸ hu)
      have hfilter : ws.filter (v.collected w).idle = ws.filter v.idle :=
        List.filter_congr fun u hu => by unfold idle; rw [hsame u hu]
      refine .bind (collect_ensures.onFail fun _ r h => .inl h.1)
        fun _ => .bind ((collectEach_ensures hnd).onFail ?_)
        fun us => .pure ?_
      · intro _ r hx
        rcases hx with hF | ⟨u, hu, e, he⟩
        · exact .inl hF
        · exact .inr ⟨u, List.mem_cons_of_mem _ hu, e, by rw [← hsame u hu, he]⟩
      · intro r hx
        obtain ⟨rfl, hr⟩ := hx
        rw [hfilter] at hr ⊢
        exact ⟨by simp [hidle], hr⟩

theorem garbageCollect_ensures :
    Ensures (fun r : Runner κ σ => r.seen = v) garbageCollect
      (fun us r => us = (v.active.toList.filter v.expired).filter v.idle ∧
        r.seen = us.foldl collected v)
      fun _ _ => LawfulStore.Faulty σ ∨ ∃ w, ∃ e, v.readiness w = .error e := by
  refine .bind (Q := fun a r => a.seen = v ∧ r.seen = v) (.get fun r h => ⟨h, h⟩) fun a => ?_
  refine .of_fact ?_
  intro hx
  obtain rfl := hx
  refine (collectEach_ensures a.nodup_candidates).onFail ?_
  intro _ r hx
  rcases hx with hF | ⟨u, -, e, he⟩
  · exact .inl hF
  · exact .inr ⟨u, e, he⟩

end Steps

/-! ## Operations and ticks, step by step -/

section Operations

variable [StateStore σ] [CustomTrigger κ]

theorem step_of_ok {op : Operation} {r r' : Runner κ σ} {a : Answer}
    (h : perform op r = .ok a r') : r.step op = (.ok a, r') := by
  unfold step
  rw [h]

theorem step_of_error {op : Operation} {r r' : Runner κ σ} {e : RunnerError}
    (h : perform op r = .error e r') : r.step op = (.error e, r') := by
  unfold step
  rw [h]

theorem step_ensures {J K : Runner κ σ → Prop} {op : Operation}
    (h : Ensures J (perform op : RunnerM κ σ Answer) (fun _ => K) fun _ => K) {r : Runner κ σ}
    (hr : J r) : K (r.step op).2 := by
  cases hx : perform op r with
  | ok a r' =>
    rw [step_of_ok hx]
    exact h.of_ok hr hx
  | error e r' =>
    rw [step_of_error hx]
    exact h.of_error hr hx

omit [StateStore σ] [CustomTrigger κ] in
/-- An attempt returns what came of the action, be it a result or an error. -/
theorem attempt_ensures {α : Type} {P : Runner κ σ → Prop} {act : RunnerM κ σ α}
    {Q : Except RunnerError α → Runner κ σ → Prop} {E : RunnerError → Runner κ σ → Prop}
    (h : Ensures P act (fun a => Q (.ok a)) fun e => Q (.error e)) :
    Ensures P (attempt act) Q E := by
  intro r hr
  unfold attempt
  cases hx : act r with
  | ok a r' => exact h.of_ok hr hx
  | error e r' => exact h.of_error hr hx

theorem attempt_fireIfReady (w : Window) (r : Runner κ σ) : ∃ o,
    attempt (fireIfReady w) r = .ok o (r.step (.fireIfReady w)).2 := by
  unfold attempt
  cases h : fireIfReady w r with
  | ok o r' =>
    have hs : r.step (.fireIfReady w) = (.ok (.outcome o), r') := step_of_ok (bind_of_ok h)
    exact ⟨.ok o, by rw [hs]⟩
  | error e r' =>
    have hs : r.step (.fireIfReady w) = (.error e, r') := step_of_error (bind_of_error h)
    exact ⟨.error e, by rw [hs]⟩

/-- Once the watermark has moved, a tick does what firing the woken windows in turn does. -/
theorem fireEach_eq : ∀ (ws : List Window) (r : Runner κ σ), ∃ os,
    fireEach ws r = .ok os (r.run (ws.map .fireIfReady))
  | [], r => ⟨[], rfl⟩
  | w :: ws, r => by
    obtain ⟨o, ho⟩ := attempt_fireIfReady w r
    obtain ⟨os, hos⟩ := fireEach_eq ws (r.step (.fireIfReady w)).2
    exact ⟨(w, o) :: os, (bind_of_ok ho).trans (bind_of_ok hos)⟩

theorem step_tick (t : Timestamp) (r : Runner κ σ) :
    (r.step (.tick t)).2 = (r.advance t).2.run ((r.advance t).1.map .fireIfReady) := by
  obtain ⟨os, h⟩ := fireEach_eq (r.advance t).1 (r.advance t).2
  have ht : tick t r = .ok os ((r.advance t).2.run ((r.advance t).1.map .fireIfReady)) :=
    (bind_of_ok rfl).trans h
  exact congrArg Prod.snd (step_of_ok (a := .outcomes os) (bind_of_ok ht))

end Operations

end Runner

end PaneTriggers
